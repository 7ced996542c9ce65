import ContractStubs.TypeRef.Basic

/-!
# The nodes of a reference

A reference is a tree: its arguments are references too. What is proved for a reference whose arguments have it already
is proved for all (`TypeRef.induction`); `TypeRef.Everywhere` says that all nodes of a reference have a property, and
substitution keeps it where what is put in has it (`everywhere_substitute`).
-/

namespace ContractStubs

namespace TypeRef

theorem eta (r : TypeRef) : ⟨r.name, r.namespaceName?, r.args, r.suffix, r.elementNames, r.kind⟩ = r := by
  cases r; rfl

/-! ## Arguments one by one -/

mutual

/-- A property of references that comes from that of the arguments. -/
theorem induction {motive : TypeRef → Prop} (h : ∀ r : TypeRef, (∀ a ∈ r.args, motive a) → motive r) : ∀ r, motive r
  | ⟨_, _, args, _, _, _⟩ => h _ (inductionAll h args)

theorem inductionAll {motive : TypeRef → Prop} (h : ∀ r : TypeRef, (∀ a ∈ r.args, motive a) → motive r) :
    ∀ (rs : List TypeRef), ∀ a ∈ rs, motive a
  | [] => by simp
  | r :: rs => List.forall_mem_cons.mpr ⟨induction h r, inductionAll h rs⟩

end

theorem substituteAll_eq_map (f : String → Option TypeRef) : ∀ rs : List TypeRef,
    substituteAll f rs = rs.map (substitute f)
  | [] => rfl
  | r :: rs => by rw [substituteAll, substituteAll_eq_map f rs, List.map_cons]

theorem argTexts_eq_map : ∀ rs : List TypeRef, argTexts rs = rs.map toText
  | [] => rfl
  | r :: rs => by rw [argTexts, argTexts_eq_map rs, List.map_cons]

theorem namespacesOfAll_eq_flatMap : ∀ rs : List TypeRef, namespacesOfAll rs = rs.flatMap namespaces
  | [] => rfl
  | r :: rs => by rw [namespacesOfAll, namespacesOfAll_eq_flatMap rs, List.flatMap_cons]

/-- The namespaces of a reference are its own and those of its arguments. -/
theorem mem_namespaces {r : TypeRef} {ns : String} :
    ns ∈ r.namespaces ↔ r.namespaceName? = some ns ∨ ∃ a ∈ r.args, ns ∈ a.namespaces := by
  obtain ⟨name, ns?, args, suffix, names, kind⟩ := r
  rw [namespaces, namespacesOfAll_eq_flatMap, List.mem_append, Option.mem_toList, List.mem_flatMap]

/-! ## Substitution -/

/-- Only the arguments of a reference that is no type parameter are touched. -/
theorem substitute_of_ne_typeParameter (f : String → Option TypeRef) {r : TypeRef} (h : r.kind ≠ .typeParameter) :
    r.substitute f = { r with args := r.args.map (substitute f) } := by
  obtain ⟨name, ns, args, suffix, names, kind⟩ := r
  cases kind with
  | typeParameter => exact absurd rfl h
  | _ => simp only [substitute, substituteAll_eq_map]

theorem substitute_of_none (f : String → Option TypeRef) {r : TypeRef} (h : f r.name = none) :
    r.substitute f = { r with args := r.args.map (substitute f) } := by
  by_cases hk : r.kind = .typeParameter
  · obtain ⟨name, ns, args, suffix, names, kind⟩ := r
    obtain rfl : kind = .typeParameter := hk
    simp only [substitute, h, substituteAll_eq_map]
  · exact substitute_of_ne_typeParameter f hk

theorem substitute_of_some (f : String → Option TypeRef) {r s : TypeRef} (hk : r.kind = .typeParameter)
    (h : f r.name = some s) : r.substitute f = s.withSuffix (s.suffix ++ r.suffix) := by
  obtain ⟨name, ns, args, suffix, names, kind⟩ := r
  obtain rfl : kind = .typeParameter := hk
  simp only [substitute, h, withSuffix]

/-- A type parameter is the only node that substitution puts something else for. -/
theorem substitute_of_kept (f : String → Option TypeRef) {r : TypeRef}
    (h : ¬(r.kind = .typeParameter ∧ ∃ s, f r.name = some s)) :
    r.substitute f = { r with args := r.args.map (substitute f) } := by
  by_cases hk : r.kind = .typeParameter
  · exact substitute_of_none f (Option.eq_none_iff_forall_ne_some.mpr fun s hs => h ⟨hk, s, hs⟩)
  · exact substitute_of_ne_typeParameter f hk

/-! ## All nodes -/

mutual

/-- All nodes of the reference have the property. -/
def Everywhere (P : TypeRef → Prop) : TypeRef → Prop
  | ⟨name, ns, args, suffix, names, kind⟩ => P ⟨name, ns, args, suffix, names, kind⟩ ∧ EverywhereAll P args

/-- All nodes of the references have the property. -/
def EverywhereAll (P : TypeRef → Prop) : List TypeRef → Prop
  | [] => True
  | r :: rs => Everywhere P r ∧ EverywhereAll P rs

end

variable {P : TypeRef → Prop}

theorem everywhereAll_iff : ∀ {rs : List TypeRef}, EverywhereAll P rs ↔ ∀ r ∈ rs, Everywhere P r
  | [] => by simp [EverywhereAll]
  | r :: rs => by rw [EverywhereAll, everywhereAll_iff, List.forall_mem_cons]

theorem everywhere_iff {r : TypeRef} : r.Everywhere P ↔ P r ∧ ∀ a ∈ r.args, a.Everywhere P := by
  obtain ⟨name, ns, args, suffix, names, kind⟩ := r
  rw [Everywhere, everywhereAll_iff]

/-- **Substitution keeps a property of all nodes**: one that rests on a node's own fields and the number of its
arguments, and that a suffix put behind does not break. -/
theorem everywhere_substitute {f : String → Option TypeRef}
    (hargs : ∀ (r : TypeRef) (args : List TypeRef), args.length = r.args.length → P r → P { r with args })
    (hsuffix : ∀ r s : TypeRef, P r → P s → P (s.withSuffix (s.suffix ++ r.suffix)))
    (hf : ∀ name s, f name = some s → s.Everywhere P) : ∀ r : TypeRef, r.Everywhere P → (r.substitute f).Everywhere P :=
  induction fun r ih hr => by
    obtain ⟨hnode, hall⟩ := everywhere_iff.mp hr
    by_cases hreplaced : r.kind = .typeParameter ∧ ∃ s, f r.name = some s
    · obtain ⟨hk, s, hs⟩ := hreplaced
      obtain ⟨hsnode, hsall⟩ := everywhere_iff.mp (hf r.name s hs)
      rw [substitute_of_some f hk hs]
      exact everywhere_iff.mpr ⟨hsuffix r s hnode hsnode, hsall⟩
    · rw [substitute_of_kept f hreplaced]
      refine everywhere_iff.mpr ⟨hargs r _ (by simp) hnode, fun a ha => ?_⟩
      obtain ⟨arg, harg, rfl⟩ := List.mem_map.mp ha
      exact ih arg harg (hall arg harg)

end TypeRef

end ContractStubs
