import ContractStubs.Program.Members
import ContractStubs.Proofs.Lists

/-!
# The search for inherited members

Constructed interfaces and their bases are a graph: `Inherits p r s` says that `s` is `r` or is reached from it through
bases that are interfaces. The search keeps texts of visited interfaces and members; said over the visited interfaces
themselves it is `visit`, and the harvest is a view of those (`Harvest.of`, `gather_of`).

* **Soundness and closure** (`visit_explores`): what a search adds is reached from where it starts, no text is visited
  twice, and every base of what it adds is visited at least under its text.
-/

namespace ContractStubs

/-- The key that a reference looks up. -/
def TypeRef.lookupKey (r : TypeRef) : DeclarationKey := ⟨r.namespaceName?, r.name, r.arity⟩

namespace Program

variable {p : Program}

/-! ## The graph of constructed interfaces -/

theorem mem_declarationsOf {r : TypeRef} {d : Declaration} :
    d ∈ p.declarationsOf r ↔ r.kind = .named ∧ d ∈ p.model.declarations ∧ d.key = r.lookupKey := by
  unfold declarationsOf declarationsWithKey
  split <;> simp_all [TypeRef.lookupKey]

/-- An interface is declared, and all its declarations are those of interfaces. -/
theorem interfaceDeclarations_eq_ok {r : TypeRef} {ds : List Declaration} :
    p.interfaceDeclarations r = .ok ds ↔
      ds = p.declarationsOf r ∧ ds ≠ [] ∧ ∀ d ∈ ds, d.kind = .interfaceType := by
  by_cases hk : r.kind = .named
  · simp only [interfaceDeclarations, hk]
    generalize p.declarationsOf r = es
    by_cases he : es = []
    · subst he
      simpa using fun h => absurd h
    · by_cases ha : ∀ d ∈ es, d.kind = .interfaceType
      · have hany : (es.any fun d => d.kind != .interfaceType) = false := by simpa using ha
        simp only [List.isEmpty_iff, he, hany, if_false, Except.ok.injEq, Bool.false_eq_true]
        exact ⟨fun h => h ▸ ⟨rfl, he, ha⟩, fun h => h.1.symm⟩
      · have hany : (es.any fun d => d.kind != .interfaceType) = true := by simpa using ha
        simp only [List.isEmpty_iff, he, hany, if_false, if_true, reduceCtorEq, false_iff]
        exact fun h => ha (h.1 ▸ h.2.2)
  · have hnil : p.declarationsOf r = [] := by rw [declarationsOf, if_neg hk]
    unfold interfaceDeclarations
    cases h : r.kind with
    | named => exact absurd h hk
    | _ => simp only [reduceCtorEq, false_iff, hnil]; exact fun h => h.2.1 h.1

/-- The reference refers to an interface. -/
def isInterface (p : Program) (r : TypeRef) : Bool := (p.interfaceDeclarations r).isOk

/-- The members that an interface itself declares, in all of its declarations. -/
def declaredMembers (p : Program) (r : TypeRef) : List InterfaceMember :=
  match p.interfaceDeclarations r with
  | .ok ds => p.ownMembers ds r
  | .error _ => []

/-- The bases that an interface is written with, in all of its declarations. -/
def bases (p : Program) (r : TypeRef) : List TypeRef :=
  match p.interfaceDeclarations r with
  | .ok ds => p.basesOf ds r
  | .error _ => []

theorem isInterface_iff {r : TypeRef} :
    p.isInterface r = true ↔ p.interfaceDeclarations r = .ok (p.declarationsOf r) := by
  rw [isInterface]
  cases hd : p.interfaceDeclarations r with
  | error cause => simp [Except.isOk, Except.toBool]
  | ok ds => simp [(interfaceDeclarations_eq_ok.mp hd).1, Except.isOk, Except.toBool]

theorem kind_of_isInterface {r : TypeRef} (h : p.isInterface r) : r.kind = .named := by
  obtain ⟨-, hne, -⟩ := interfaceDeclarations_eq_ok.mp (isInterface_iff.mp h)
  obtain ⟨d, hd⟩ := List.exists_mem_of_ne_nil _ hne
  exact (mem_declarationsOf.mp hd).1

theorem kind_of_mem_declarationsOf {r : TypeRef} {d : Declaration} (h : p.isInterface r) (hd : d ∈ p.declarationsOf r) :
    d.kind = .interfaceType :=
  (interfaceDeclarations_eq_ok.mp (isInterface_iff.mp h)).2.2 d hd

/-- A base is one that a declaration of the interface is written with, type parameters being replaced. -/
theorem mem_bases_iff {s t : TypeRef} : t ∈ p.bases s ↔ p.isInterface s ∧
    ∃ d ∈ p.declarationsOf s, ∃ e ∈ d.baseTypes, t = p.typeIn (.ofDeclaration d) (p.declarationsOf s) s e := by
  by_cases hi : p.isInterface s
  · simp only [bases, isInterface_iff.mp hi, basesOf, List.mem_flatMap, List.mem_map, hi, true_and]
    exact exists_congr fun d => and_congr_right fun _ => exists_congr fun e => and_congr_right fun _ => eq_comm
  · refine iff_of_false (fun h => ?_) fun h => hi h.1
    cases hd : p.interfaceDeclarations s with
    | error cause => simp [bases, hd] at h
    | ok ds => exact hi (by rw [isInterface, hd]; rfl)

/-- A declared member is one that a declaration of the interface is written with, type parameters being replaced. -/
theorem mem_declaredMembers_iff {s : TypeRef} {m : InterfaceMember} : m ∈ p.declaredMembers s ↔ p.isInterface s ∧
    ∃ d ∈ p.declarationsOf s, ∃ n ∈ d.members, m = p.memberOf (p.declarationsOf s) s d n := by
  by_cases hi : p.isInterface s
  · simp only [declaredMembers, isInterface_iff.mp hi, ownMembers, List.mem_flatMap, List.mem_map, hi, true_and]
    exact exists_congr fun d => and_congr_right fun _ => exists_congr fun n => and_congr_right fun _ => eq_comm
  · refine iff_of_false (fun h => ?_) fun h => hi h.1
    cases hd : p.interfaceDeclarations s with
    | error cause => simp [declaredMembers, hd] at h
    | ok ds => exact hi (by rw [isInterface, hd]; rfl)

/-- An argument that a type parameter stands for is an argument of the constructed interface. -/
theorem mem_args_of_argumentOf? {ds : List Declaration} {r a : TypeRef} {name : String}
    (h : argumentOf? ds r name = some a) : a ∈ r.args := by
  obtain ⟨before, after, he, _⟩ := List.lookup_eq_some_iff.mp h
  have hmem : (name, a) ∈ ((ds.head?.elim [] Declaration.typeParameters).zip r.args).reverse := by simp [he]
  exact (List.of_mem_zip (List.mem_reverse.mp hmem)).2

/-- The second is the first, or is reached from it through bases that are interfaces. -/
inductive Inherits (p : Program) (r : TypeRef) : TypeRef → Prop
  | self : p.isInterface r → Inherits p r r
  | base {s t : TypeRef} : Inherits p r s → t ∈ p.bases s → p.isInterface t → Inherits p r t

theorem Inherits.isInterface {r s : TypeRef} (h : p.Inherits r s) : p.isInterface s := by
  cases h with
  | self h => exact h
  | base _ _ h => exact h

/-- What a base inherits from, the interface inherits from. -/
theorem Inherits.head {r b s : TypeRef} (hr : p.isInterface r) (hb : b ∈ p.bases r) (h : p.Inherits b s) :
    p.Inherits r s := by
  induction h with
  | self hb' => exact .base (.self hr) hb hb'
  | base _ ht ht' ih => exact .base ih ht ht'

/-- What is inherited from by something inherited from is inherited from. -/
theorem Inherits.trans {r s t : TypeRef} (h : p.Inherits r s) (h' : p.Inherits s t) : p.Inherits r t := by
  induction h' with
  | self _ => exact h
  | base _ ht hi ih => exact ih.base ht hi

/-- An interface inherits from nothing but itself and what its bases inherit from. -/
theorem Inherits.cases_head {r s : TypeRef} (h : p.Inherits r s) : s = r ∨ ∃ b ∈ p.bases r, p.Inherits b s := by
  induction h with
  | self => exact .inl rfl
  | base _ ht hi ih =>
    obtain rfl | ⟨b, hb, hs⟩ := ih
    · exact .inr ⟨_, ht, .self hi⟩
    · exact .inr ⟨b, hb, hs.base ht hi⟩

/-- A declared member names the interface that declares it. -/
theorem declaringInterface_of_mem {r : TypeRef} {m : InterfaceMember} (h : m ∈ p.declaredMembers r) :
    m.declaringInterface = r := by
  obtain ⟨-, d, -, n, -, rfl⟩ := mem_declaredMembers_iff.mp h
  rfl

/-! ## The search over visited interfaces -/

/-- The texts under which interfaces are visited. -/
def texts (seen : List TypeRef) : List String := seen.map TypeRef.qualifiedText

/-- The interfaces that a search has visited, in the order of the visits. -/
def visit (p : Program) : (depth : Nat) → TypeRef → (seen : List TypeRef) → Option (List TypeRef)
  | 0, _, _ => none
  | depth + 1, r, seen =>
    if p.isInterface r ∧ r.qualifiedText ∉ texts seen then
      (p.bases r).foldlM (fun seen base => visit p depth base seen) (seen ++ [r])
    else some seen

/-- The harvest of a search that has visited these interfaces. -/
def Harvest.of (p : Program) (seen : List TypeRef) : Harvest :=
  ⟨(texts seen).reverse, seen.flatMap p.declaredMembers⟩

theorem Harvest.of_nil : Harvest.of p [] = .start := rfl

theorem Harvest.of_snoc (seen : List TypeRef) (r : TypeRef) :
    Harvest.of p (seen ++ [r]) = (Harvest.of p seen).add r.qualifiedText (p.declaredMembers r) := by
  simp [Harvest.of, Harvest.add, texts]

theorem Harvest.mem_visited_of {seen : List TypeRef} {text : String} :
    text ∈ (Harvest.of p seen).visited ↔ text ∈ texts seen := List.mem_reverse

/-- **The search of the harvest is the search over interfaces.** -/
theorem gather_of : ∀ (depth : Nat) (r : TypeRef) (seen : List TypeRef),
    p.gather depth r (.of p seen) =
      match p.interfaceDeclarations r with
      | .error cause => if depth = 0 then none else some (.error cause)
      | .ok _ => (p.visit depth r seen).map fun seen => .ok (.of p seen)
  | 0, r, seen => by cases h : p.interfaceDeclarations r <;> simp [gather, visit]
  | depth + 1, r, seen => by
    cases h : p.interfaceDeclarations r with
    | error cause => simp [gather, h]
    | ok ds =>
      have hi : p.isInterface r = true := by rw [isInterface, h]; rfl
      have hm : p.declaredMembers r = p.ownMembers ds r := by rw [declaredMembers, h]
      have hb : p.bases r = p.basesOf ds r := by rw [bases, h]
      by_cases hseen : r.qualifiedText ∈ texts seen
      · simp [gather, h, visit, Harvest.mem_visited_of, hseen]
      · simp only [gather, h, visit, hi, List.contains_iff_mem, Harvest.mem_visited_of, hseen, true_and, if_false,
          not_false_eq_true, if_true]
        rw [hb, ← hm, ← Harvest.of_snoc, foldlM_view (g := fun seen base => p.visit depth base seen)
          (v := Harvest.of p), Option.map_map]
        · rfl
        · intro seen base _
          rw [gather_of depth base seen]
          cases hbase : p.interfaceDeclarations base with
          | ok es => cases p.visit depth base seen <;> rfl
          | error cause =>
            have : p.isInterface base = false := by rw [isInterface, hbase]; rfl
            cases depth <;> simp [visit, this, Except.toOption]

/-! ## What a search visits -/

/-- A search from the roots, having seen some interfaces, ends having seen these. -/
structure Explores (p : Program) (roots seen seen' : List TypeRef) : Prop where
  /-- What is new is reached from a root, and every base of it is visited under its text. -/
  grows : ∃ new, seen' = seen ++ new ∧ ∀ s ∈ new, (∃ r ∈ roots, p.Inherits r s) ∧
    ∀ t ∈ p.bases s, p.isInterface t → t.qualifiedText ∈ texts seen'
  /-- No text is visited twice. -/
  nodup : (texts seen).Nodup → (texts seen').Nodup
  /-- Every root is visited under its text. -/
  roots_visited : ∀ r ∈ roots, p.isInterface r → r.qualifiedText ∈ texts seen'

namespace Explores

variable {r : TypeRef} {rs seen seen₁ seen₂ : List TypeRef}

theorem texts_subset (h : Explores p rs seen seen₁) : texts seen ⊆ texts seen₁ := by
  obtain ⟨new, rfl, _⟩ := h.grows
  simp [texts]

theorem nil : Explores p [] seen seen where
  grows := ⟨[], by simp⟩
  nodup := id
  roots_visited := by simp

/-- A search from one root, then from others. -/
theorem cons (h₁ : Explores p [r] seen seen₁) (h₂ : Explores p rs seen₁ seen₂) : Explores p (r :: rs) seen seen₂ := by
  obtain ⟨new₁, he₁, hn₁⟩ := h₁.grows
  obtain ⟨new₂, he₂, hn₂⟩ := h₂.grows
  refine ⟨⟨new₁ ++ new₂, by rw [he₂, he₁, List.append_assoc], fun s hs => ?_⟩, h₂.nodup ∘ h₁.nodup, fun q hq hi => ?_⟩
  · rcases List.mem_append.mp hs with hs | hs
    · obtain ⟨⟨q, hq, hr⟩, hb⟩ := hn₁ s hs
      exact ⟨⟨q, List.mem_cons.mpr (.inl (List.mem_singleton.mp hq)), hr⟩, fun t ht hi => h₂.texts_subset (hb t ht hi)⟩
    · obtain ⟨⟨q, hq, hr⟩, hb⟩ := hn₂ s hs
      exact ⟨⟨q, List.mem_cons_of_mem _ hq, hr⟩, hb⟩
  · rcases List.mem_cons.mp hq with rfl | hq
    · exact h₂.texts_subset (h₁.roots_visited _ List.mem_cons_self hi)
    · exact h₂.roots_visited q hq hi

/-- A search that stops at its root at once. -/
theorem stop (h : p.isInterface r → r.qualifiedText ∈ texts seen) : Explores p [r] seen seen where
  grows := ⟨[], by simp⟩
  nodup := id
  roots_visited q hq hi := by
    obtain rfl := List.mem_singleton.mp hq
    exact h hi

/-- A search that visits its root and goes on from the bases. -/
theorem enter (hi : p.isInterface r) (hr : r.qualifiedText ∉ texts seen)
    (h : Explores p (p.bases r) (seen ++ [r]) seen₁) : Explores p [r] seen seen₁ := by
  have hmem : r.qualifiedText ∈ texts seen₁ := h.texts_subset (by simp [texts])
  obtain ⟨new, he, hn⟩ := h.grows
  refine ⟨⟨r :: new, by rw [he, List.append_assoc]; rfl, fun s hs => ?_⟩, fun hd => h.nodup ?_, fun q hq _ => ?_⟩
  · rcases List.mem_cons.mp hs with rfl | hs
    · exact ⟨⟨s, List.mem_cons_self, .self hi⟩, h.roots_visited⟩
    · obtain ⟨⟨b, hb, hbs⟩, hc⟩ := hn s hs
      exact ⟨⟨r, List.mem_cons_self, hbs.head hi hb⟩, hc⟩
  · rw [texts, List.map_append, List.nodup_append]
    exact ⟨hd, by simp, by rintro a ha b hb rfl; exact hr (by simp_all [texts])⟩
  · obtain rfl := List.mem_singleton.mp hq
    exact hmem

/-- A search from several roots, one after the other. -/
theorem of_foldlM {search : List TypeRef → TypeRef → Option (List TypeRef)}
    (hs : ∀ r seen seen', search seen r = some seen' → Explores p [r] seen seen') :
    ∀ {rs seen seen' : List TypeRef}, rs.foldlM search seen = some seen' → Explores p rs seen seen'
  | [], seen, seen', h => by
    obtain rfl : seen = seen' := by simpa using h
    exact nil
  | r :: rs, seen, seen', h => by
    rw [List.foldlM_cons] at h
    obtain ⟨seen₁, h₁, h₂⟩ := Option.bind_eq_some_iff.mp h
    exact (hs r seen seen₁ h₁).cons (of_foldlM hs h₂)

end Explores

/-- **A search explores what it starts from.** -/
theorem visit_explores : ∀ {depth : Nat} {r : TypeRef} {seen seen' : List TypeRef},
    p.visit depth r seen = some seen' → Explores p [r] seen seen'
  | 0, _, _, _, h => by cases h
  | depth + 1, r, seen, seen', h => by
    rw [visit] at h
    split at h
    · rename_i hr
      exact .enter hr.1 hr.2 (.of_foldlM (fun _ _ _ => visit_explores) h)
    · rename_i hr
      obtain rfl := Option.some.inj h
      exact .stop fun hi => Decidable.byContradiction fun hs => hr ⟨hi, hs⟩

/-! ## Searches for the members of an interface -/

/-- No two interfaces that `r` inherits from have one text. -/
def TextsDiffer (p : Program) (r : TypeRef) : Prop :=
  ∀ s t, p.Inherits r s → p.Inherits r t → s.qualifiedText = t.qualifiedText → s = t

/-- What a search adds to what was seen is inherited from by its root. -/
theorem Explores.inherits_of_mem_of {i r s : TypeRef} {seen seen' : List TypeRef} (h : Explores p [r] seen seen')
    (hr : ∀ t, p.Inherits r t → p.Inherits i t) (hseen : ∀ s ∈ seen, p.Inherits i s) (hs : s ∈ seen') :
    p.Inherits i s := by
  obtain ⟨new, rfl, hn⟩ := h.grows
  rcases List.mem_append.mp hs with hs | hs
  · exact hseen s hs
  · obtain ⟨⟨q, hq, hqs⟩, -⟩ := hn s hs
    exact hr s (List.mem_singleton.mp hq ▸ hqs)

/-- What a search visits is inherited from by its root. -/
theorem Explores.inherits_of_mem {r s : TypeRef} {visited : List TypeRef} (h : Explores p [r] [] visited)
    (hs : s ∈ visited) : p.Inherits r s :=
  h.inherits_of_mem_of (fun _ ht => ht) (fun _ hs => absurd hs List.not_mem_nil) hs

/-- Where texts differ, a search visits all that its root inherits from. -/
theorem Explores.mem_of_textsDiffer {r s : TypeRef} {visited : List TypeRef} (h : Explores p [r] [] visited)
    (hdiff : p.TextsDiffer r) (hs : p.Inherits r s) : s ∈ visited := by
  obtain ⟨new, hnew, hn⟩ := h.grows
  rw [List.nil_append] at hnew
  subst hnew
  have of_text : ∀ {t : TypeRef}, p.Inherits r t → t.qualifiedText ∈ texts visited → t ∈ visited := by
    intro t ht hmem
    obtain ⟨u, hu, he⟩ := List.mem_map.mp hmem
    obtain ⟨⟨q, hq, hqu⟩, _⟩ := hn u hu
    exact hdiff u t (List.mem_singleton.mp hq ▸ hqu) ht he ▸ hu
  induction hs with
  | self hi => exact of_text (.self hi) (h.roots_visited r List.mem_cons_self hi)
  | base hs ht hi ih => exact of_text (hs.base ht hi) ((hn _ ih).2 _ ht hi)

/-- The search for the members of `r` comes to an end. -/
def Ends (p : Program) (r : TypeRef) : Prop := ∃ depth, (p.membersWithin? depth r).isSome

theorem membersWithin?_eq (depth : Nat) (r : TypeRef) :
    p.membersWithin? depth r =
      match p.interfaceDeclarations r with
      | .error cause => if depth = 0 then none else some (.error cause)
      | .ok _ => (p.visit depth r []).map fun seen => .ok (seen.flatMap p.declaredMembers) := by
  rw [membersWithin?, ← Harvest.of_nil (p := p), gather_of]
  cases p.interfaceDeclarations r with
  | error cause => by_cases h : depth = 0 <;> simp [h, Except.map]
  | ok _ => rw [Option.map_map]; rfl

/-- A search that gives members came to its end. -/
theorem membersWithin?_of_members {depth : Nat} {r : TypeRef} {ms : List InterfaceMember}
    (h : (p.provider depth).members r = .ok ms) : p.membersWithin? depth r = some (.ok ms) := by
  cases hsearch : p.membersWithin? depth r with
  | none => simp [provider, hsearch] at h
  | some outcome => simpa [provider, hsearch] using h

/-- The members of a search that ended are those of the interfaces that it visited. -/
theorem members_of_visited {depth : Nat} {r : TypeRef} {ms : List InterfaceMember}
    (h : p.membersWithin? depth r = some (.ok ms)) :
    ∃ visited, p.visit depth r [] = some visited ∧ ms = visited.flatMap p.declaredMembers := by
  rw [membersWithin?_eq] at h
  cases hd : p.interfaceDeclarations r with
  | error cause => rw [hd] at h; by_cases hz : depth = 0 <;> simp [hz] at h
  | ok ds =>
    rw [hd] at h
    obtain ⟨visited, hv, he⟩ := Option.map_eq_some_iff.mp h
    exact ⟨visited, hv, (Except.ok.inj he).symm⟩

/-- What is found is declared by an interface that is inherited from. -/
theorem exists_inherits_of_mem {depth : Nat} {r : TypeRef} {ms : List InterfaceMember} {m : InterfaceMember}
    (h : p.membersWithin? depth r = some (.ok ms)) (hm : m ∈ ms) : ∃ s, p.Inherits r s ∧ m ∈ p.declaredMembers s := by
  obtain ⟨visited, hv, rfl⟩ := members_of_visited h
  obtain ⟨s, hs, hm⟩ := List.mem_flatMap.mp hm
  exact ⟨s, (visit_explores hv).inherits_of_mem hs, hm⟩

/-- What is no interface is found to be none at once. -/
theorem ends_of_not_isInterface {r : TypeRef} (h : ¬p.isInterface r) : p.Ends r := by
  refine ⟨1, ?_⟩
  rw [membersWithin?_eq]
  cases hd : p.interfaceDeclarations r with
  | error cause => rfl
  | ok ds => rw [isInterface, hd] at h; exact absurd rfl h

theorem membersWithin?_isSome {r : TypeRef} (h : p.isInterface r) (depth : Nat) :
    (p.membersWithin? depth r).isSome = (p.visit depth r []).isSome := by
  rw [membersWithin?_eq]
  cases hd : p.interfaceDeclarations r with
  | error cause => rw [isInterface, hd] at h; cases h
  | ok ds => simp

theorem ends_iff {r : TypeRef} (h : p.isInterface r) : p.Ends r ↔ ∃ depth seen, p.visit depth r [] = some seen := by
  simp [Ends, membersWithin?_isSome h, Option.isSome_iff_exists]

end Program

end ContractStubs
