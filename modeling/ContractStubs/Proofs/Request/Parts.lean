import ContractStubs.Program.Members
import ContractStubs.Proofs.Declaration.Numbering
import ContractStubs.Proofs.Request.Grouping

/-!
# The declarations of a request

A request of a program is made of the declarations that carry the marker and declare a type of its name
(`Program.partsOf`): their ids, all the uses of the marker on them, and the type of the first
(`Program.parts_of_mem_requests`).
-/

namespace ContractStubs

/-- The type that is declared, whether its names are valid or not. -/
def Declaration.target (d : Declaration) : TargetType :=
  ⟨d.namespaceName?.filter (· ≠ ""), d.containers, d.name, d.typeParameters, d.kind, [d.id]⟩

/-- The qualified name of the type that is declared. -/
def Declaration.qualifiedName (d : Declaration) : String := d.target.qualifiedName

/-- The declaration carries the marker and declares a type of this qualified name. -/
def Declaration.isPartOf (marker : Marker) (name : String) (d : Declaration) : Bool :=
  d.attributes.any (fun a => marker.isMatch a.name) &&
    (Program.targetOf? d).any fun target => target.qualifiedName == name

theorem firstOnly_of_nodup {α : Type} [DecidableEq α] : ∀ {as seen : List α}, as.Nodup → (∀ a ∈ as, a ∉ seen) →
    firstOnly seen as = as
  | [], _, _, _ => rfl
  | a :: as, seen, hd, hseen => by
    obtain ⟨ha, hd⟩ := List.nodup_cons.mp hd
    obtain ⟨haseen, hasseen⟩ := List.forall_mem_cons.mp hseen
    rw [firstOnly, if_neg haseen, firstOnly_of_nodup hd]
    intro b hb hmem
    rcases List.mem_cons.mp hmem with rfl | hmem
    · exact ha hb
    · exact hasseen b hb hmem

namespace Program

variable {p : Program} {marker : Marker} {name : String} {depth : Nat}

theorem attributeUses_eq_nil {b : Binder} {scope : Scope} {a : Attribute} :
    attributeUses b scope marker a = [] ↔ marker.isMatch a.name = false := by
  rw [attributeUses]
  cases hm : marker.isMatch a.name with
  | false => simp
  | true => cases ha : a.typeArguments <;> simp

/-- The marker is used on a declaration that has an attribute of its name. -/
theorem usesOn_eq_nil {d : Declaration} :
    p.usesOn marker d = [] ↔ (d.attributes.any fun a => marker.isMatch a.name) = false := by
  simp [usesOn, attributeUses_eq_nil]

theorem of_targetOf?_eq_some {d : Declaration} {target : TargetType} (h : targetOf? d = some target) :
    d.kind.acceptsMarker = true ∧
      target = ⟨d.namespaceName?.filter (· ≠ ""), d.containers, d.name, d.typeParameters, d.kind, [d.id]⟩ := by
  rw [targetOf?] at h
  split at h
  next hvalid =>
    simp only [Bool.and_eq_true] at hvalid
    exact ⟨hvalid.1.1.2, (Option.some.inj h).symm⟩
  next => cases h

/-! ## Requests -/

/-- What a declaration asks for; nothing where its type or the marker's uses cannot be told. -/
def requestOn? (p : Program) (marker : Marker) (d : Declaration) : Option StubRequest :=
  if p.usesOn marker d = [] then none else (targetOf? d).map fun target => ⟨target, p.usesOn marker d⟩

theorem requestOf?_id (hm : p.model.IsNumbered) {d : Declaration} (hd : d ∈ p.model.declarations) :
    (p.provider depth).requestOf? marker d.id = p.requestOn? marker d := by
  have hget := hm.get?_id hd
  rw [Provider.requestOf?, requestOn?]
  simp only [provider, target?, markerUses?, hget, Option.bind_some]
  cases targetOf? d with
  | none => simp
  | some target =>
    cases hu : p.usesOn marker d with
    | nil => simp
    | cons u us => simp

theorem isCandidate_of_requestOn? {d : Declaration} {r : StubRequest} (h : p.requestOn? marker d = some r) :
    isCandidate marker d = true := by
  rw [requestOn?] at h
  split at h
  next => cases h
  next hu =>
    obtain ⟨target, ht, -⟩ := Option.map_eq_some_iff.mp h
    have hmatch : (d.attributes.any fun a => marker.isMatch a.name) = true := by
      simpa using fun hno => hu (usesOn_eq_nil.mpr hno)
    rw [isCandidate, (of_targetOf?_eq_some ht).1, hmatch]
    rfl

/-- The requests of a program. -/
def requests (p : Program) (marker : Marker) : List StubRequest :=
  groups (p.model.declarations.filterMap (p.requestOn? marker))

/-- The candidates of a pass are the declarations that carry the marker, each once. -/
theorem candidates_eq (hm : p.model.IsNumbered) :
    (p.provider depth).candidates marker = (p.model.declarations.filter (isCandidate marker)).map (·.id) := by
  have hnodup : ((p.model.declarations.filter (isCandidate marker)).map (·.id)).Nodup := by
    rw [List.nodup_iff_pairwise_ne, List.pairwise_map]
    exact (hm.pairwise_id.filter _).imp Nat.ne_of_lt
  exact firstOnly_of_nodup hnodup fun _ _ => List.not_mem_nil

/-- **The requests that a pass works on.** -/
theorem requests_eq (hm : p.model.IsNumbered) :
    (p.provider depth).requests marker ((p.provider depth).candidates marker) = p.requests marker := by
  rw [Provider.requests_eq_groups, candidates_eq hm, List.filterMap_map, requests]
  congr 1
  rw [List.filterMap_filter]
  refine List.filterMap_congr fun d hd => ?_
  by_cases hc : isCandidate marker d
  · rw [if_pos hc]
    exact requestOf?_id hm hd
  · rw [if_neg hc]
    cases hr : p.requestOn? marker d with
    | none => rfl
    | some r => exact absurd (isCandidate_of_requestOn? hr) hc

/-! ## The parts of a request -/

/-- The declarations that carry the marker and declare a type of this qualified name. -/
def partsOf (p : Program) (marker : Marker) (name : String) : List Declaration :=
  p.model.declarations.filter (Declaration.isPartOf marker name)

/-- The parts are the candidates whose type can be told and has the name. -/
theorem partsOf_eq_candidates (p : Program) (marker : Marker) (name : String) : p.partsOf marker name =
    (p.model.declarations.filter (isCandidate marker)).filter fun d =>
      (targetOf? d).any fun target => target.qualifiedName == name := by
  rw [partsOf, List.filter_filter]
  apply List.filter_congr
  intro d _
  rw [Declaration.isPartOf, isCandidate]
  cases ht : targetOf? d with
  | none => simp
  | some target =>
    rw [(of_targetOf?_eq_some ht).1, Bool.true_and]
    exact Bool.and_comm _ _

theorem any_requestOn? {d : Declaration} :
    ((p.requestOn? marker d).any fun r => r.qualifiedName == name) = d.isPartOf marker name := by
  rw [requestOn?, Declaration.isPartOf]
  split
  next hu => rw [usesOn_eq_nil.mp hu, Bool.false_and, Option.any_none]
  next hu =>
    have hmatch : (d.attributes.any fun a => marker.isMatch a.name) = true := by
      simpa using fun hno => hu (usesOn_eq_nil.mpr hno)
    rw [hmatch, Bool.true_and, Option.any_map]
    rfl

/-- A part of a request asks for its uses of the marker. -/
theorem requestOn?_of_isPartOf {d : Declaration} (h : d.isPartOf marker name = true) :
    ∃ target, targetOf? d = some target ∧ p.requestOn? marker d = some ⟨target, p.usesOn marker d⟩ := by
  rw [← any_requestOn? (p := p), Option.any_eq_true] at h
  obtain ⟨r, hr, -⟩ := h
  rw [requestOn?] at hr ⊢
  split at hr
  next => cases hr
  next hu =>
    obtain ⟨target, ht, rfl⟩ := Option.map_eq_some_iff.mp hr
    exact ⟨target, ht, by rw [if_neg hu, ht]; rfl⟩

theorem flatMap_requestOn? : ∀ {ds : List Declaration}, (∀ d ∈ ds, d.isPartOf marker name = true) →
    (ds.filterMap (p.requestOn? marker)).flatMap (·.target.declarations) = ds.map (·.id) ∧
      (ds.filterMap (p.requestOn? marker)).flatMap (·.uses) = ds.flatMap (p.usesOn marker)
  | [], _ => ⟨rfl, rfl⟩
  | d :: ds, h => by
    obtain ⟨hd, hds⟩ := List.forall_mem_cons.mp h
    obtain ⟨target, ht, hr⟩ := requestOn?_of_isPartOf (p := p) hd
    obtain ⟨hids, huses⟩ := flatMap_requestOn? hds
    rw [List.filterMap_cons_some hr, List.flatMap_cons, List.flatMap_cons, List.map_cons, List.flatMap_cons, hids, huses,
      (of_targetOf?_eq_some ht).2]
    exact ⟨rfl, rfl⟩

/-- **A request is made of its parts.** -/
theorem parts_of_mem_requests {r : StubRequest} (h : r ∈ p.requests marker) :
    r.target.declarations = (p.partsOf marker r.qualifiedName).map (·.id) ∧
      r.uses = (p.partsOf marker r.qualifiedName).flatMap (p.usesOn marker) ∧
      ∃ first rest target, p.partsOf marker r.qualifiedName = first :: rest ∧ targetOf? first = some target ∧
        { r.target with declarations := [] } = { target with declarations := [] } := by
  obtain ⟨q, others, hfilter, hr⟩ := groupOf?_eq_some.mp (mem_groups.mp h)
  have hparts : (p.partsOf marker r.qualifiedName).filterMap (p.requestOn? marker) = q :: others := by
    rw [← hfilter, List.filter_filterMap, partsOf, List.filterMap_filter]
    refine List.filterMap_congr fun d _ => ?_
    rw [← any_requestOn? (p := p)]
    cases p.requestOn? marker d with
    | none => rfl
    | some s => by_cases hs : s.qualifiedName = r.qualifiedName <;> simp [Option.filter, hs]
  have hpart : ∀ d ∈ p.partsOf marker r.qualifiedName, d.isPartOf marker r.qualifiedName = true := fun d hd =>
    (List.mem_filter.mp hd).2
  obtain ⟨hids, huses⟩ := flatMap_requestOn? (p := p) hpart
  rw [hparts] at hids huses
  cases hcons : p.partsOf marker r.qualifiedName with
  | nil =>
    rw [hcons] at hparts
    cases hparts
  | cons first rest =>
    obtain ⟨target, ht, hfirst⟩ := requestOn?_of_isPartOf (p := p) (hpart first (hcons ▸ List.mem_cons_self))
    rw [hcons, List.filterMap_cons_some hfirst] at hparts
    obtain ⟨rfl, -⟩ := List.cons.inj hparts
    rw [StubRequest.joinAll_eq, hids, huses, hcons] at hr
    refine ⟨congrArg (·.target.declarations) hr, congrArg StubRequest.uses hr, first, rest, target, rfl, ht, ?_⟩
    exact congrArg (fun r : StubRequest => { r.target with declarations := [] }) hr

end Program

end ContractStubs
