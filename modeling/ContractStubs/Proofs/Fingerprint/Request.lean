import ContractStubs.Proofs.Fingerprint.Content
import ContractStubs.Proofs.Request.Parts
import ContractStubs.Proofs.Stub.Contracts

/-!
# The declarations that a fingerprint is made of

A fingerprint is made of the parts of a request and of what is reached from its targets, one list behind the other. The
contents alone tell where the one list ends (`Program.Resembles.contents`): were the second program's request longer by
some parts, these would be reached from the targets in the first program, which has not as many. So requests of one name
with the same contents, in programs that look up types alike, have the same text (`Program.Resembles.stubFile_eq`).
-/

namespace ContractStubs

/-- The types of a declaration that a text may depend on, each in its scope: those of an interface, or those that the
marker names. -/
def Declaration.consulted (marker : Marker) (d : Declaration) : List (Scope × TypeExpr) :=
  if d.kind = .interfaceType then d.interfaceTypes else d.markedTypes marker

theorem Declaration.consulted_eq_of_content {marker : Marker} {d e : Declaration} (h : d.content = e.content) :
    d.consulted marker = e.consulted marker := by
  rw [consulted, consulted, (content_eq_iff.mp h).1, interfaceTypes_eq_of_content h, markedTypes_eq_of_content h]

/-! ## Parts with the same content -/

section Parts

variable {d e : Declaration} {marker : Marker} {name : String}

theorem targetOf?_eq_of_content (h : d.content = e.content) :
    (Program.targetOf? d).map (fun target => { target with declarations := [] }) =
      (Program.targetOf? e).map fun target => { target with declarations := [] } := by
  obtain ⟨hkind, hname, hns, hcontainers, hparameters, -, -, -, -, hmalformed⟩ := Declaration.content_eq_iff.mp h
  rw [Program.targetOf?, Program.targetOf?, hkind, hname, hns, hcontainers, hparameters, hmalformed]
  split <;> rfl

theorem isPartOf_eq_of_content (h : d.content = e.content) :
    d.isPartOf marker name = e.isPartOf marker name := by
  have htargets := congrArg (fun o : Option TargetType => o.any fun target => target.qualifiedName == name)
    (targetOf?_eq_of_content h)
  simp only [Option.any_map] at htargets
  rw [Declaration.isPartOf, Declaration.isPartOf, (Declaration.content_eq_iff.mp h).2.2.2.2.2.1]
  exact congrArg _ htargets

theorem kind_of_isPartOf (h : d.isPartOf marker name = true) : d.kind ≠ .interfaceType := by
  rw [Declaration.isPartOf, Bool.and_eq_true, Option.any_eq_true] at h
  obtain ⟨-, target, ht, -⟩ := h
  have haccepts := (Program.of_targetOf?_eq_some ht).1
  intro hk
  rw [hk] at haccepts
  cases haccepts

theorem usesOn_eq_of_content {p q : Program} (h : d.content = e.content) (hk : d.kind ≠ .interfaceType)
    (hbind : BindAlike p.binder q.binder (d.consulted marker)) : p.usesOn marker d = q.usesOn marker e := by
  rw [Declaration.consulted, if_neg hk] at hbind
  rw [Program.usesOn, Program.usesOn, ← (Declaration.content_eq_iff.mp h).2.2.2.2.2.1,
    ← Declaration.scope_eq_of_content h]
  refine List.flatMap_congr fun a ha => ?_
  rw [Program.attributeUses, Program.attributeUses]
  by_cases hm : marker.isMatch a.name
  · have hargs : ∀ t ∈ a.typeArguments, p.binder.bind (.ofDeclaration d) t = q.binder.bind (.ofDeclaration d) t :=
      fun t ht => hbind (_, t) (List.mem_flatMap.mpr ⟨a, List.mem_filter.mpr ⟨ha, hm⟩, List.mem_map_of_mem ht⟩)
    cases hcons : a.typeArguments with
    | nil => rfl
    | cons t ts =>
      rw [hcons] at hargs
      simp only [hm, Bool.not_true, Bool.false_eq_true, if_false]
      exact List.map_congr_left fun u hu => congrArg MarkerUse.targeting (hargs u hu)
  · simp [hm]

end Parts

/-! ## Counting contents -/

section Counting

variable {x : Declaration} {ds es : List Declaration}

/-- The number of declarations with a content. -/
def countContent (x : Declaration) (ds : List Declaration) : Nat := ds.countP fun d => d.content == x

theorem count_map_content : (ds.map Declaration.content).count x = countContent x ds := by
  rw [List.count, List.countP_map]
  rfl

/-- A filter that all declarations with a content pass does not change their number. -/
theorem countContent_filter {f : Declaration → Bool} (hf : ∀ d ∈ ds, d.content = x → f d = true) :
    countContent x (ds.filter f) = countContent x ds := by
  rw [countContent, List.countP_filter]
  refine List.countP_congr fun d hd => ?_
  rw [Bool.and_eq_true, beq_iff_eq]
  exact ⟨fun h => h.1, fun h => ⟨h, hf d hd h⟩⟩

/-- Of two lists, the one without repeats has no more of a content if the other has all of it. -/
theorem countContent_le (hds : ds.Nodup) (hsub : ∀ d ∈ ds, d.content = x → d ∈ es) :
    countContent x ds ≤ countContent x es := by
  have hsubset : ds.filter (fun d => d.content == x) ⊆ es := fun d hd => by
    obtain ⟨hd, hx⟩ := List.mem_filter.mp hd
    exact hsub d hd (beq_iff_eq.mp hx)
  have hle := (List.subperm_of_subset (hds.filter _) hsubset).countP_le fun d => d.content == x
  have hself : countContent x (ds.filter fun d => d.content == x) = countContent x ds :=
    countContent_filter fun d _ hx => beq_iff_eq.mpr hx
  rw [← hself]
  exact hle

end Counting

namespace Program

variable {p q : Program} {marker : Marker} {r s : StubRequest} {depth : Nat}

/-- The declarations that can be reached from the targets of a request. -/
def reachedBy (p : Program) (r : StubRequest) : List Declaration :=
  reachedFrom p.model.declarations (r.interfaces.flatMap p.declarationsOf)

/-- The declarations that the fingerprint of a request is made of. -/
def hashed (p : Program) (marker : Marker) (r : StubRequest) : List Declaration :=
  p.partsOf marker r.qualifiedName ++ p.reachedBy r

theorem fingerprintParts_eq (hm : p.model.IsNumbered) (hr : r ∈ p.requests marker) (options : List String) :
    (p.provider depth).fingerprintParts options r = options ++ (p.hashed marker r).map Declaration.fingerprintPart := by
  have hids := (parts_of_mem_requests hr).1
  have hparts : (p.provider depth).withIds r.target.declarations = p.partsOf marker r.qualifiedName := by
    rw [hids, Provider.withIds, List.filterMap_map]
    refine (List.filterMap_congr fun d hd => ?_).trans List.filterMap_some
    exact hm.get?_id (List.mem_of_mem_filter hd)
  rw [Provider.fingerprintParts, hparts, hashed, List.map_append, List.append_assoc]
  rfl

/-- What is reached and is no interface is declared for a target. -/
theorem exists_target_of_mem_reachedBy {d : Declaration} (hd : d ∈ p.reachedBy r) (hk : d.kind ≠ .interfaceType) :
    ∃ t ∈ r.interfaces, d ∈ p.declarationsOf t := by
  rcases (of_mem_reached hd).2 with hstart | ⟨c, -, hbase⟩
  · exact List.mem_flatMap.mp (List.mem_reverse.mp hstart)
  · obtain ⟨-, base, -, hnamed⟩ := mem_of_mem_possibleBases hbase
    simp only [Declaration.isNamedBy, Bool.and_eq_true, beq_iff_eq] at hnamed
    exact absurd hnamed.1.1 hk

/-- Requests of one name whose fingerprints are made of the same contents, in lawful programs that look up the types in
them alike. -/
structure Resembles (p q : Program) (marker : Marker) (r s : StubRequest) : Prop where
  lawful : p.IsLawful
  lawful' : q.IsLawful
  numbered : p.model.IsNumbered
  numbered' : q.model.IsNumbered
  mem : r ∈ p.requests marker
  mem' : s ∈ q.requests marker
  names : r.qualifiedName = s.qualifiedName
  contents : (p.hashed marker r).map Declaration.content = (q.hashed marker s).map Declaration.content
  bindAlike : ∀ d ∈ p.hashed marker r, BindAlike p.binder q.binder (d.consulted marker)

namespace Resembles

theorem symm (h : p.Resembles q marker r s) : q.Resembles p marker s r := by
  refine ⟨h.lawful', h.lawful, h.numbered', h.numbered, h.mem', h.mem, h.names.symm, h.contents.symm,
    fun e he place hplace => ?_⟩
  obtain ⟨d, hd, hde⟩ := exists_of_content h.contents.symm he
  rw [← Declaration.consulted_eq_of_content hde] at hplace
  exact (h.bindAlike d hd place hplace).symm

/-- What the parts of the one request name is named by the other, if it has parts of the same contents. -/
theorem interfaces_subset (h : p.Resembles q marker r s)
    (hparts : ∀ d ∈ p.partsOf marker r.qualifiedName, ∃ e ∈ q.partsOf marker s.qualifiedName, d.content = e.content) :
    r.interfaces ⊆ s.interfaces := by
  intro t ht
  obtain ⟨u, hu, hut⟩ := List.mem_filterMap.mp ht
  rw [(parts_of_mem_requests h.mem).2.1] at hu
  obtain ⟨d, hd, hu⟩ := List.mem_flatMap.mp hu
  obtain ⟨e, he, hde⟩ := hparts d hd
  have huses := usesOn_eq_of_content hde (kind_of_isPartOf (List.mem_filter.mp hd).2)
    (h.bindAlike d (List.mem_append_left _ hd))
  refine List.mem_filterMap.mpr ⟨u, ?_, hut⟩
  rw [(parts_of_mem_requests h.mem').2.1]
  exact List.mem_flatMap.mpr ⟨e, he, huses ▸ hu⟩

/-- If a request has fewer parts than one that it resembles, the contents of the further ones are those of the first
declarations that are reached from its targets. -/
theorem exists_further (h : p.Resembles q marker r s)
    (hlt : (p.partsOf marker r.qualifiedName).length < (q.partsOf marker s.qualifiedName).length) :
    ∃ further, further ≠ [] ∧
      (q.partsOf marker s.qualifiedName).map Declaration.content =
        (p.partsOf marker r.qualifiedName).map Declaration.content ++ further ∧
      (p.reachedBy r).map Declaration.content = further ++ (q.reachedBy s).map Declaration.content := by
  have hcontents := h.contents
  rw [hashed, hashed, List.map_append, List.map_append] at hcontents
  rcases List.append_eq_append_iff.mp hcontents with ⟨further, hc, hr⟩ | ⟨further, hc, -⟩
  · refine ⟨further, ?_, hc, hr⟩
    rintro rfl
    have hlength := congrArg List.length hc
    simp only [List.append_nil, List.length_map] at hlength
    omega
  · have hlength := congrArg List.length hc
    simp only [List.length_append, List.length_map] at hlength
    omega

/-- A request has as many parts as one that it resembles: further parts of the one would be reached from the targets of
the other, whose program has not as many declarations of that content. -/
theorem length_parts_le (h : p.Resembles q marker r s) :
    (q.partsOf marker s.qualifiedName).length ≤ (p.partsOf marker r.qualifiedName).length := by
  by_contra hlt
  obtain ⟨further, hne, hparts', hreached⟩ := h.exists_further (Nat.not_le.mp hlt)
  obtain ⟨x, hx⟩ := List.exists_mem_of_ne_nil further hne
  -- the content is that of a part in the one program, and of something reached in the other
  obtain ⟨e, he, hex⟩ := List.mem_map.mp (hparts' ▸ List.mem_append_right _ hx)
  obtain ⟨d, hd, hdx⟩ := List.mem_map.mp (hreached ▸ List.mem_append_left _ hx)
  have hpart : ∀ c : Declaration, c.content = x → c.isPartOf marker s.qualifiedName = true := fun c hc =>
    (isPartOf_eq_of_content (hc.trans hex.symm)).trans (List.mem_filter.mp he).2
  obtain ⟨t, ht, hdt⟩ := exists_target_of_mem_reachedBy hd (kind_of_isPartOf (hpart d hdx))
  have ht' : t ∈ s.interfaces := by
    refine h.interfaces_subset (fun c hc => ?_) ht
    obtain ⟨c', hc', hcc⟩ := List.mem_map.mp (hparts' ▸ List.mem_append_left _ (List.mem_map_of_mem hc))
    exact ⟨c', hc', hcc.symm⟩
  obtain ⟨hkind, -, hkey⟩ := mem_declarationsOf.mp hdt
  have hall : ∀ c ∈ q.model.declarations, c.content = x → c ∈ q.reachedBy s := fun c hc hcx =>
    (h.lawful'.covers h.numbered' s.interfaces).2 t ht' c
      (mem_declarationsOf.mpr ⟨hkind, hc, (Declaration.key_eq_of_content (hcx.trans hdx.symm)).trans hkey⟩)
  have hcovers := (h.lawful.covers h.numbered r.interfaces).1
  have hcount : countContent x (p.partsOf marker r.qualifiedName) = countContent x p.model.declarations :=
    countContent_filter fun c _ hc => h.names ▸ hpart c hc
  have hcount' : countContent x (q.partsOf marker s.qualifiedName) = countContent x q.model.declarations :=
    countContent_filter fun c _ hc => hpart c hc
  have hle : countContent x (p.reachedBy r) ≤ countContent x p.model.declarations :=
    countContent_le hcovers.nodup fun c hc _ => hcovers.mem c hc
  have hle' : countContent x q.model.declarations ≤ countContent x (q.reachedBy s) :=
    countContent_le h.numbered'.nodup hall
  have hsum := congrArg (List.count x) hparts'
  have hsum' := congrArg (List.count x) hreached
  rw [List.count_append, count_map_content, count_map_content] at hsum hsum'
  have hpos : 0 < further.count x := List.count_pos_iff.mpr hx
  omega

/-- **The contents tell where the parts end.** -/
theorem contents_parts (h : p.Resembles q marker r s) :
    (p.partsOf marker r.qualifiedName).map Declaration.content =
        (q.partsOf marker s.qualifiedName).map Declaration.content ∧
      (p.reachedBy r).map Declaration.content = (q.reachedBy s).map Declaration.content := by
  have hcontents := h.contents
  rw [hashed, hashed, List.map_append, List.map_append] at hcontents
  refine List.append_inj hcontents ?_
  rw [List.length_map, List.length_map]
  exact Nat.le_antisymm h.symm.length_parts_le h.length_parts_le

/-- **Requests that resemble one another have one text.** -/
theorem stubFile_eq (h : p.Resembles q marker r s) (allow : Bool) (outputExtension : String) :
    (p.provider depth).stubFile allow outputExtension r = (q.provider depth).stubFile allow outputExtension s := by
  obtain ⟨hparts, hreached⟩ := h.contents_parts
  obtain ⟨-, huses, first, rest, target, hcons, ht, htarget⟩ := parts_of_mem_requests h.mem
  obtain ⟨-, huses', first', rest', target', hcons', ht', htarget'⟩ := parts_of_mem_requests h.mem'
  have hsame : r.uses = s.uses := by
    rw [huses, huses']
    refine flatMap_eq_of_content hparts fun d hd e _ hde => ?_
    exact usesOn_eq_of_content hde (kind_of_isPartOf (List.mem_filter.mp hd).2)
      (h.bindAlike d (List.mem_append_left _ hd))
  have hinterfaces : r.interfaces = s.interfaces := by rw [StubRequest.interfaces, StubRequest.interfaces, hsame]
  obtain ⟨hcovers, hincludes⟩ := h.lawful.covers h.numbered r.interfaces
  obtain ⟨hcovers', hincludes'⟩ := h.lawful'.covers h.numbered' s.interfaces
  have hmirrors : p.Mirrors q (p.reachedBy r) (q.reachedBy s) := by
    refine ⟨h.lawful, h.lawful', hcovers, hcovers', hreached, fun d hd hk => ?_⟩
    have hbind := h.bindAlike d (List.mem_append_right _ hd)
    rwa [Declaration.consulted, if_pos hk] at hbind
  refine Provider.stubFile_congr outputExtension ?_ hsame fun i hi => ?_
  · rw [hcons, hcons', List.map_cons, List.map_cons] at hparts
    have htargets := targetOf?_eq_of_content (List.cons.inj hparts).1
    rw [ht, ht', Option.map_some, Option.map_some] at htargets
    rw [htarget, htarget', Option.some.inj htargets]
  · have hmembers := hmirrors.membersWithin?_eq (hincludes i hi) (hincludes' i (hinterfaces ▸ hi)) depth
    simp only [provider, hmembers]

end Resembles

end Program

end ContractStubs
