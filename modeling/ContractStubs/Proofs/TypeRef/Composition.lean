import ContractStubs.Proofs.TypeRef.Places

/-!
# Substitutions one after the other

Two substitutions done one after the other are one (`TypeRef.substitute_substitute`): what the first one puts in is
substituted by the second one before it is put in, and a name that the first one leaves is left to the second one. What
a substitution gives rests on what stands for the type parameters of a reference (`TypeRef.substitute_eq_iff`).
-/

namespace ContractStubs

namespace TypeRef

variable {f g : String → Option TypeRef}

/-- The replacements of the first substitution, substituted by the second one, and those of the second one for all other
names. -/
def andThen (f g : String → Option TypeRef) (name : String) : Option TypeRef :=
  ((f name).map (substitute g)).or (g name)

theorem andThen_of_some {name : String} {a : TypeRef} (h : f name = some a) :
    andThen f g name = some (a.substitute g) := by
  rw [andThen, h]
  rfl

theorem andThen_of_none {name : String} (h : f name = none) : andThen f g name = g name := by
  rw [andThen, h]
  rfl

/-- Marks behind a reference stay behind what is put for it. -/
theorem substitute_withSuffix_append (g : String → Option TypeRef) (a : TypeRef) (marks : String) :
    (a.withSuffix (a.suffix ++ marks)).substitute g =
      (a.substitute g).withSuffix ((a.substitute g).suffix ++ marks) := by
  by_cases hreplaced : a.IsReplaced g
  · obtain ⟨hk, b, hb⟩ := hreplaced
    have hmarked : (a.withSuffix (a.suffix ++ marks)).substitute g =
        b.withSuffix (b.suffix ++ (a.suffix ++ marks)) := substitute_of_some g hk hb
    rw [hmarked, substitute_of_some g hk hb, ← String.append_assoc]
    rfl
  · have hmarked : ¬(a.withSuffix (a.suffix ++ marks)).IsReplaced g := hreplaced
    rw [substitute_of_kept g hmarked, substitute_of_kept g hreplaced]
    rfl

/-- **Two substitutions one after the other are one.** -/
theorem substitute_substitute (f g : String → Option TypeRef) : ∀ r : TypeRef,
    (r.substitute f).substitute g = r.substitute (andThen f g) :=
  induction fun r ih => by
    by_cases hfirst : r.IsReplaced f
    · obtain ⟨hk, a, ha⟩ := hfirst
      rw [substitute_of_some f hk ha, substitute_withSuffix_append, substitute_of_some _ hk (andThen_of_some ha)]
    · rw [substitute_of_kept f hfirst]
      by_cases hsecond : r.IsReplaced g
      · obtain ⟨hk, b, hb⟩ := hsecond
        rw [substitute_of_some _ hk ((andThen_of_none (eq_none_of_not_isReplaced hfirst hk)).trans hb)]
        exact substitute_of_some g hk hb
      · have hkept : ¬r.IsReplaced (andThen f g) := by
          rintro ⟨hk, b, hb⟩
          exact hsecond ⟨hk, b, (andThen_of_none (eq_none_of_not_isReplaced hfirst hk)).symm.trans hb⟩
        have hargs : (r.args.map (substitute f)).map (substitute g) = r.args.map (substitute (andThen f g)) := by
          rw [List.map_map]
          exact List.map_congr_left ih
        rw [substitute_of_kept _ hkept, ← hargs]
        exact substitute_of_kept g hsecond

/-! ## What matters to a substitution -/

/-- What stands for a type parameter afterwards: its replacement, else the type parameter itself. -/
def standsFor (f : String → Option TypeRef) (name : String) : TypeRef := (f name).getD (bare .typeParameter name)

/-- Nothing else is put for the type parameter. -/
def Spares (f : String → Option TypeRef) (name : String) : Prop := standsFor f name = .bare .typeParameter name

/-- The type parameters in the reference are names with marks and nothing else. -/
def BareParameters (r : TypeRef) : Prop :=
  ∀ place u, r.at? place = some u → u.kind = .typeParameter → u = (bare .typeParameter u.name).withSuffix u.suffix

theorem BareParameters.of_mem {r a : TypeRef} (h : r.BareParameters) (ha : a ∈ r.args) : a.BareParameters := by
  obtain ⟨i, hi⟩ := List.mem_iff_getElem?.mp ha
  intro place u hu
  exact h (i :: place) u (by rw [at?, hi]; exact hu)

theorem substitute_bare (f : String → Option TypeRef) (name suffix : String) :
    ((bare .typeParameter name).withSuffix suffix).substitute f =
      (standsFor f name).withSuffix ((standsFor f name).suffix ++ suffix) := by
  cases h : f name with
  | some a =>
    rw [substitute_of_some f (r := (bare .typeParameter name).withSuffix suffix) rfl h, standsFor, h]
    rfl
  | none =>
    have hempty : (bare .typeParameter name).suffix ++ suffix = suffix := String.empty_append
    rw [substitute_of_none f (r := (bare .typeParameter name).withSuffix suffix) h, standsFor, h, Option.getD_none,
      hempty]
    rfl

theorem withSuffix_append_inj {a b : TypeRef} {marks : String}
    (h : a.withSuffix (a.suffix ++ marks) = b.withSuffix (b.suffix ++ marks)) : a = b := by
  obtain ⟨name, ns, args, suffix, names, kind⟩ := a
  obtain ⟨name', ns', args', suffix', names', kind'⟩ := b
  simp only [withSuffix, mk.injEq] at h
  obtain ⟨rfl, rfl, rfl, hsuffix, rfl, rfl⟩ := h
  have hlists := congrArg String.toList hsuffix
  rw [String.toList_append, String.toList_append, List.append_cancel_right_eq] at hlists
  rw [String.toList_injective hlists]

/-- **Two substitutions give the same exactly where the same stands for each type parameter of the reference.** -/
theorem substitute_eq_iff : ∀ r : TypeRef, r.BareParameters →
    (r.substitute f = r.substitute g ↔ ∀ name, r.HasParameter name → standsFor f name = standsFor g name) :=
  induction fun r ih hbare => by
    by_cases hk : r.kind = .typeParameter
    · have hr := hbare [] r rfl hk
      have hnames : ∀ name, r.HasParameter name ↔ name = r.name := fun name => by
        have hargs : r.args = [] := congrArg args hr
        rw [hasParameter_iff, hargs]
        simp [IsParameter, hk, eq_comm]
      simp only [hnames, forall_eq]
      rw [hr, substitute_bare, substitute_bare]
      exact ⟨withSuffix_append_inj, fun h => by rw [show standsFor f r.name = _ from h]; rfl⟩
    · have hnames : ∀ name, r.HasParameter name ↔ ∃ a ∈ r.args, a.HasParameter name := fun name => by
        rw [hasParameter_iff, or_iff_right fun h => hk h.1]
      have hargs : r.substitute f = r.substitute g ↔ ∀ a ∈ r.args, a.substitute f = a.substitute g := by
        rw [substitute_of_ne_typeParameter f hk, substitute_of_ne_typeParameter g hk, mk.injEq]
        simp only [true_and, and_true]
        exact List.map_inj_left
      rw [hargs]
      refine ⟨fun h name hname => ?_, fun h a ha => ?_⟩
      · obtain ⟨a, ha, hname⟩ := (hnames name).mp hname
        exact (ih a ha (hbare.of_mem ha)).mp (h a ha) name hname
      · exact (ih a ha (hbare.of_mem ha)).mpr fun name hname => h name ((hnames name).mpr ⟨a, ha, hname⟩)

end TypeRef

end ContractStubs
