import ContractStubs.Proofs.TypeRef.Nodes

/-!
# Places in a reference

A place in a reference is told by the indices of the arguments that lead to it. What holds of a node at some place holds
of the reference itself or of a node of an argument (`TypeRef.exists_at?_iff`). The namespaces of a reference are those
of its nodes (`mem_namespaces_iff_at?`). A substitution looks at no node twice: each node of a substituted reference was
there and was kept, or came with a replacement as it is (`TypeRef.keepsAt_or_bringsAt`); so it is with its type
parameters (`HasParameter.of_substitute`).
-/

namespace ContractStubs

namespace TypeRef

variable {name : String}

/-- The node at a place. -/
def at? : (place : List Nat) → TypeRef → Option TypeRef
  | [], r => some r
  | i :: place, r => r.args[i]?.bind (at? place)

theorem at?_append : ∀ (place below : List Nat) (r : TypeRef), r.at? (place ++ below) = (r.at? place).bind (at? below)
  | [], _, _ => rfl
  | i :: place, below, r => by
    rw [List.cons_append, at?, at?]
    cases r.args[i]? with
    | none => rfl
    | some a => exact at?_append place below a

/-- A node of a reference is the reference itself or a node of an argument. -/
theorem exists_at?_iff {P : TypeRef → Prop} {r : TypeRef} :
    (∃ place u, r.at? place = some u ∧ P u) ↔ P r ∨ ∃ a ∈ r.args, ∃ place u, a.at? place = some u ∧ P u := by
  constructor
  · rintro ⟨place, u, hu, hP⟩
    cases place with
    | nil =>
      cases hu
      exact .inl hP
    | cons i place =>
      obtain ⟨a, ha, hu⟩ := Option.bind_eq_some_iff.mp hu
      exact .inr ⟨a, List.mem_of_getElem? ha, place, u, hu, hP⟩
  · rintro (hP | ⟨a, ha, place, u, hu, hP⟩)
    · exact ⟨[], r, rfl, hP⟩
    · obtain ⟨i, hi⟩ := List.mem_iff_getElem?.mp ha
      exact ⟨i :: place, u, by rw [at?, hi]; exact hu, hP⟩

/-- **A reference touches the namespaces of its nodes.** -/
theorem mem_namespaces_iff_at? {ns : String} : ∀ r : TypeRef,
    ns ∈ r.namespaces ↔ ∃ place u, r.at? place = some u ∧ u.namespaceName? = some ns :=
  induction fun r ih => by
    rw [mem_namespaces, exists_at?_iff (P := fun u => u.namespaceName? = some ns)]
    exact or_congr_right (exists_congr fun a => and_congr_right fun ha => ih a ha)

/-! ## Type parameters -/

/-- The node is the type parameter of this name. -/
def IsParameter (r : TypeRef) (name : String) : Prop := r.kind = .typeParameter ∧ r.name = name

instance (r : TypeRef) : Decidable (r.IsParameter name) := inferInstanceAs (Decidable (_ ∧ _))

/-- Somewhere in the reference stands the type parameter of this name. -/
def HasParameter (r : TypeRef) (name : String) : Prop := ∃ place u, r.at? place = some u ∧ u.IsParameter name

theorem hasParameter_iff {r : TypeRef} :
    r.HasParameter name ↔ r.IsParameter name ∨ ∃ a ∈ r.args, a.HasParameter name :=
  exists_at?_iff

/-- Marks are no nodes. -/
theorem hasParameter_withSuffix {r : TypeRef} {suffix : String} :
    (r.withSuffix suffix).HasParameter name ↔ r.HasParameter name := by
  rw [hasParameter_iff, hasParameter_iff]
  exact Iff.rfl

/-! ## What a substituted reference is made of -/

variable {f : String → Option TypeRef}

/-- Something is put for the reference. -/
def IsReplaced (f : String → Option TypeRef) (r : TypeRef) : Prop := r.kind = .typeParameter ∧ ∃ a, f r.name = some a

theorem eq_none_of_not_isReplaced {r : TypeRef} (h : ¬r.IsReplaced f) (hk : r.kind = .typeParameter) :
    f r.name = none :=
  Option.eq_none_iff_forall_ne_some.mpr fun a ha => h ⟨hk, a, ha⟩

/-- At a place stands a node that was there before, nothing being put for it; what is inside it is substituted. -/
def KeepsAt (f : String → Option TypeRef) (r : TypeRef) (place : List Nat) (v : TypeRef) : Prop :=
  ∃ u, r.at? place = some u ∧ ¬u.IsReplaced f ∧ v = { u with args := u.args.map (substitute f) }

/-- At a place stands a node that came as it is with what was put for a type parameter; the marks of the type parameter
are behind those of the replacement. -/
def BringsAt (f : String → Option TypeRef) (r : TypeRef) (place : List Nat) (v : TypeRef) : Prop :=
  ∃ above below u a, place = above ++ below ∧ r.at? above = some u ∧ u.kind = .typeParameter ∧ f u.name = some a ∧
    (a.withSuffix (a.suffix ++ u.suffix)).at? below = some v

/-- Where something is put for the whole reference, every node came with it. -/
theorem bringsAt_root {r v : TypeRef} {place : List Nat} (hr : r.IsReplaced f)
    (h : (r.substitute f).at? place = some v) : BringsAt f r place v := by
  obtain ⟨hk, a, ha⟩ := hr
  rw [substitute_of_some f hk ha] at h
  exact ⟨[], place, r, a, rfl, rfl, hk, ha, h⟩

/-- **Nothing is substituted twice**: each node of a substituted reference was kept, or came as it is with a
replacement. -/
theorem keepsAt_or_bringsAt (place : List Nat) (r : TypeRef) {v : TypeRef} (h : (r.substitute f).at? place = some v) :
    KeepsAt f r place v ∨ BringsAt f r place v := by
  induction place generalizing r v with
  | nil =>
    by_cases hr : r.IsReplaced f
    · exact .inr (bringsAt_root hr h)
    · rw [substitute_of_kept f hr] at h
      exact .inl ⟨r, rfl, hr, (Option.some.inj h).symm⟩
  | cons i place ih =>
    by_cases hr : r.IsReplaced f
    · exact .inr (bringsAt_root hr h)
    · rw [substitute_of_kept f hr, at?, List.getElem?_map] at h
      obtain ⟨b, hb, hv⟩ := Option.bind_eq_some_iff.mp h
      obtain ⟨c, hc, rfl⟩ := Option.map_eq_some_iff.mp hb
      have hbelow : ∀ inside, r.at? (i :: inside) = c.at? inside := fun inside => by
        rw [at?, hc, Option.bind_some]
      rcases ih c hv with ⟨u, hu, hkept, he⟩ | ⟨above, below, u, a, rfl, hu, hk, ha, hv⟩
      · exact .inl ⟨u, (hbelow place).trans hu, hkept, he⟩
      · exact .inr ⟨i :: above, below, u, a, rfl, (hbelow above).trans hu, hk, ha, hv⟩

/-- **A type parameter of a substituted reference was there and has no replacement, or came with a replacement.** -/
theorem HasParameter.of_substitute (r : TypeRef) (h : (r.substitute f).HasParameter name) :
    (r.HasParameter name ∧ f name = none) ∨ ∃ other a, r.HasParameter other ∧ f other = some a ∧ a.HasParameter name := by
  obtain ⟨place, v, hv, hname⟩ := h
  rcases keepsAt_or_bringsAt place r hv with ⟨u, hu, hkept, rfl⟩ | ⟨above, below, u, a, rfl, hu, hk, ha, hv⟩
  · have hparameter : u.IsParameter name := hname
    have hnone := eq_none_of_not_isReplaced hkept hparameter.1
    rw [hparameter.2] at hnone
    exact .inl ⟨⟨place, u, hu, hparameter⟩, hnone⟩
  · exact .inr ⟨u.name, a, ⟨above, u, hu, hk, rfl⟩, ha, hasParameter_withSuffix.mp ⟨below, v, hv, hname⟩⟩

end TypeRef

end ContractStubs
