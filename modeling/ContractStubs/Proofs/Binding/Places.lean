import ContractStubs.Proofs.Binding.Rereading
import ContractStubs.Proofs.TypeRef.Places

/-!
# Places through looking up

A place in a type expression is told like one in a reference: by the indices of the type arguments and tuple elements
that lead to it. Looking up goes on inside an expression (`Binder.args_bind`) and gives a type parameter for nothing
but its bare name (`Binder.isParameter_bind_iff`). So all type parameters of what was looked up are in the scope
(`Binder.mem_of_hasParameter_bind`).
-/

namespace ContractStubs

namespace TypeExpr

/-- The expressions directly inside: the type arguments of a name, the types of the elements of a tuple. -/
def children : TypeExpr → List TypeExpr
  | .named _ args _ => args
  | .tuple elements _ => elements.map (·.1)
  | .verbatim _ => []

/-- The expression at a place. -/
def at? : (place : List Nat) → TypeExpr → Option TypeExpr
  | [], t => some t
  | i :: place, t => t.children[i]?.bind (at? place)

mutual

/-- A property of expressions that comes from that of what is directly inside. -/
theorem induction {motive : TypeExpr → Prop} (h : ∀ t : TypeExpr, (∀ c ∈ t.children, motive c) → motive t) :
    ∀ t, motive t
  | .named _ args _ => h _ (inductionAll h args)
  | .tuple elements _ => h _ (inductionElements h elements)
  | .verbatim _ => h _ fun _ hc => nomatch hc

theorem inductionAll {motive : TypeExpr → Prop} (h : ∀ t : TypeExpr, (∀ c ∈ t.children, motive c) → motive t) :
    ∀ (ts : List TypeExpr), ∀ t ∈ ts, motive t
  | [] => by simp
  | t :: ts => List.forall_mem_cons.mpr ⟨induction h t, inductionAll h ts⟩

theorem inductionElements {motive : TypeExpr → Prop} (h : ∀ t : TypeExpr, (∀ c ∈ t.children, motive c) → motive t) :
    ∀ (elements : List (TypeExpr × Option String)), ∀ t ∈ elements.map (·.1), motive t
  | [] => by simp
  | (t, _) :: elements => List.forall_mem_cons.mpr ⟨induction h t, inductionElements h elements⟩

end

/-! ## The names in an expression -/

/-- Each name in the expression, with the number of its type arguments, has the property. -/
def EachName (P : String → Nat → Prop) (t : TypeExpr) : Prop :=
  ∀ place name args suffix, t.at? place = some (.named name args suffix) → P name args.length

variable {P : String → Nat → Prop} {t : TypeExpr} {name suffix : String} {args : List TypeExpr}

theorem EachName.of_mem {c : TypeExpr} (h : t.EachName P) (hc : c ∈ t.children) : c.EachName P := by
  obtain ⟨i, hi⟩ := List.mem_iff_getElem?.mp hc
  intro place name args suffix hat
  exact h (i :: place) name args suffix (by rw [at?, hi]; exact hat)

theorem EachName.root (h : (named name args suffix).EachName P) : P name args.length := h [] name args suffix rfl

theorem eachName_iff : t.EachName P ↔
    (∀ name args suffix, t = .named name args suffix → P name args.length) ∧ ∀ c ∈ t.children, c.EachName P := by
  refine ⟨fun h => ⟨fun name args suffix he => EachName.root (he ▸ h), fun c hc => h.of_mem hc⟩, ?_⟩
  rintro ⟨hroot, hinside⟩ place name args suffix hat
  cases place with
  | nil => exact hroot name args suffix (Option.some.inj hat)
  | cons i place =>
    obtain ⟨c, hc, hat⟩ := Option.bind_eq_some_iff.mp hat
    exact hinside c (List.mem_of_getElem? hc) place name args suffix hat

theorem eachName_named : (named name args suffix).EachName P ↔ P name args.length ∧ ∀ c ∈ args, c.EachName P :=
  ⟨fun h => ⟨h.root, fun _ hc => h.of_mem hc⟩, fun h => eachName_iff.mpr ⟨fun _ _ _ he => by cases he; exact h.1, h.2⟩⟩

theorem eachName_tuple {elements : List (TypeExpr × Option String)} :
    (tuple elements suffix).EachName P ↔ ∀ e ∈ elements, e.1.EachName P := by
  rw [eachName_iff, and_iff_right (fun _ _ _ he => nomatch he), children, List.forall_mem_map]

end TypeExpr

/-- A name that can be the one of a type parameter: it is no keyword and has no qualifier. -/
def IsParameterName (name : String) : Prop := isKeywordType name = false ∧ splitQualifier? name = none

instance (name : String) : Decidable (IsParameterName name) := inferInstanceAs (Decidable (_ ∧ _))

namespace Binder

variable {b : Binder} {scope : Scope} {name : String}

/-- The arguments of what was looked up are what is inside, looked up. -/
theorem args_bind (b : Binder) (scope : Scope) (t : TypeExpr) :
    (b.bind scope t).args = t.children.map (b.bind scope) := by
  cases t with
  | verbatim text => rfl
  | named name args suffix =>
    change (b.bindName scope name (b.bindAll scope args)).args = _
    rw [bindName_args, bindAll_eq_map, TypeExpr.children]
  | tuple elements suffix =>
    change (b.bindElements scope elements).map (·.1) = _
    rw [bindElements_eq_map, TypeExpr.children, List.map_map, List.map_map]
    rfl

/-- The bare name of a type parameter in scope gives just that, with its marks. -/
theorem bind_parameter {suffix : String} (hname : IsParameterName name) (hs : name ∈ scope.typeParameters) :
    b.bind scope (.named name [] suffix) = (TypeRef.bare .typeParameter name).withSuffix suffix := by
  rw [bind, bindAll, bindName_of_mem_typeParameters hname.1 hname.2 hs]

/-- **Only the bare name of a type parameter in scope is looked up as one.** -/
theorem isParameter_bind_iff {t : TypeExpr} : (b.bind scope t).IsParameter name ↔
    (∃ suffix, t = .named name [] suffix) ∧ IsParameterName name ∧ name ∈ scope.typeParameters := by
  constructor
  · rintro ⟨hkind, hname⟩
    cases t with
    | verbatim text => cases hkind
    | tuple elements suffix => cases hkind
    | named written args suffix =>
      change (b.bindName scope written (b.bindAll scope args)).kind = .typeParameter at hkind
      by_cases hr : IsReserved scope written (b.bindAll scope args).length
      · obtain ⟨hlength, hsimple, hreserved⟩ := hr
        have hargs : args = [] := by simpa [bindAll_eq_map] using hlength
        subst hargs
        have hkeyword : isKeywordType written = false := by
          by_contra hkeyword
          rw [bindName, hsimple] at hkind
          simp [bindSimple, bindAll, hkeyword, TypeRef.bare] at hkind
        have hmem : written ∈ scope.typeParameters := hreserved.resolve_left (by simp [hkeyword])
        rw [bind_parameter ⟨hkeyword, hsimple⟩ hmem] at hname
        obtain rfl : written = name := hname
        exact ⟨⟨suffix, rfl⟩, ⟨hkeyword, hsimple⟩, hmem⟩
      · rcases kind_bindName_of_not_isReserved (b := b) hr with h | h <;> rw [hkind] at h <;> cases h
  · rintro ⟨⟨suffix, rfl⟩, hname, hmem⟩
    rw [bind_parameter hname hmem]
    exact ⟨rfl, rfl⟩

/-- What holds an expression is looked up as no type parameter. -/
theorem kind_bind_ne_typeParameter {t : TypeExpr} (h : t.children ≠ []) : (b.bind scope t).kind ≠ .typeParameter := by
  intro hkind
  obtain ⟨⟨suffix, ht⟩, -⟩ := isParameter_bind_iff.mp ⟨hkind, rfl⟩
  rw [ht] at h
  exact h rfl

/-- Looking up keeps places. -/
theorem at?_bind : ∀ (place : List Nat) (t : TypeExpr), (b.bind scope t).at? place = (t.at? place).map (b.bind scope)
  | [], _ => rfl
  | i :: place, t => by
    rw [TypeRef.at?, TypeExpr.at?, args_bind, List.getElem?_map]
    cases t.children[i]? with
    | none => rfl
    | some c => exact at?_bind place c

/-- The type parameters of what was looked up are in scope. -/
theorem mem_of_hasParameter_bind {t : TypeExpr} (h : (b.bind scope t).HasParameter name) :
    name ∈ scope.typeParameters := by
  obtain ⟨place, u, hu, hname⟩ := h
  rw [at?_bind] at hu
  obtain ⟨c, -, rfl⟩ := Option.map_eq_some_iff.mp hu
  exact (isParameter_bind_iff.mp hname).2.2

end Binder

end ContractStubs
