import ContractStubs.Binding.Bind
import ContractStubs.Proofs.Binding.Names
import ContractStubs.Proofs.TypeExpr.Reading
import ContractStubs.Proofs.TypeRef.Nodes

/-!
# What looking up gives

Each node of a reference that was looked up is one of a few things (`Binder.Gives`): a keyword, a type parameter, a
tuple, a type that is declared or well-known under its namespace, or a name that no well-known type has. None of this
rests on the scope, and so it survives substitution (`gives_bind`, `gives_substitute`).
-/

namespace ContractStubs

open TypeExpr

namespace Binder

variable {b : Binder} {scope : Scope}

theorem bindAll_eq_map (b : Binder) (scope : Scope) : ∀ ts : List TypeExpr, b.bindAll scope ts = ts.map (b.bind scope)
  | [] => rfl
  | t :: ts => by rw [bindAll, bindAll_eq_map b scope ts, List.map_cons]

theorem bindElements_eq_map (b : Binder) (scope : Scope) : ∀ elements : List (TypeExpr × Option String),
    b.bindElements scope elements = elements.map fun e => (b.bind scope e.1, e.2)
  | [] => rfl
  | (t, name) :: elements => by rw [bindElements, bindElements_eq_map b scope elements, List.map_cons]

/-- Nothing is declared in a namespace without a name; that would be the global one. -/
def IsNormal (b : Binder) : Prop := ∀ name arity, b.index.contains (some "") name arity = false

/-- A name is not a well-known type of the namespace that stands in front of it, or of any where none does. -/
def IsUnknown (b : Binder) (name : String) (arity : Nat) : Prop :=
  match splitQualifier? name with
  | some (qualifier, simple) => b.known.namespaceOf? simple arity ≠ some qualifier
  | none => b.known.namespaceOf? name arity = none

/-- A name is declared in a namespace, or is a well-known type of it. -/
def IsFound (b : Binder) (ns : Option String) (name : String) (arity : Nat) : Prop :=
  b.index.contains ns name arity = true ∨
    splitQualifier? name = none ∧
      ∃ known, b.known.namespaceOf? name arity = some known ∧ ns = (some known).filter (· ≠ "")

/-- What a node of a reference is that was looked up. -/
structure Gives (b : Binder) (r : TypeRef) : Prop where
  suffix : IsSuffix r.suffix
  name : r.kind ≠ .tuple → IsDotted r.name ∧ r.elementNames = []
  ofNamed : r.kind = .named → b.IsFound r.namespaceName? r.name r.arity
  ofUnresolved : r.kind = .unresolved → r.namespaceName? = none ∧ b.IsUnknown r.name r.arity
  ofBare : r.kind = .keyword ∨ r.kind = .typeParameter → r.namespaceName? = none ∧ r.args = [] ∧
    splitQualifier? r.name = none ∧ (isKeywordType r.name = true ↔ r.kind = .keyword)
  ofTuple : r.kind = .tuple → r.name = "" ∧ r.namespaceName? = none ∧ 2 ≤ r.args.length ∧
    r.elementNames.length = r.args.length ∧ ∀ name? ∈ r.elementNames, ∀ name ∈ name?, IsWord name
  notVerbatim : r.kind ≠ .verbatim

/-! ## Single names -/

variable {name qualifier suffix : String} {ns : Option String} {args : List TypeRef} {arity : Nat}

theorem contains_of_nearest? (h : b.nearest? scope name arity = some ns) : b.index.contains ns name arity = true :=
  List.find?_some (p := fun ns => b.index.contains ns name arity) h

theorem contains_of_nearestQualified? {ns : String} (h : b.nearestQualified? scope qualifier name arity = some ns) :
    b.index.contains (some ns) name arity = true :=
  List.find?_some (p := fun ns => b.index.contains (some ns) name arity) h

theorem IsNormal.filter_of_contains (hb : b.IsNormal) (h : b.index.contains ns name arity = true) :
    ns.filter (· ≠ "") = ns := by
  cases ns with
  | none => rfl
  | some ns =>
    have hne : ns ≠ "" := by
      rintro rfl
      exact Bool.false_ne_true ((hb name arity).symm.trans h)
    simp [hne]

theorem gives_named (hb : b.IsNormal) (hname : IsDotted name) (hsuffix : IsSuffix suffix)
    (h : b.index.contains ns name args.length = true) : b.Gives ((TypeRef.named ns name args).withSuffix suffix) where
  suffix := hsuffix
  name _ := ⟨hname, rfl⟩
  ofNamed _ := .inl ((congrArg (b.index.contains · name args.length) (hb.filter_of_contains h)).trans h)
  ofUnresolved h := by cases h
  ofBare h := by rcases h with h | h <;> cases h
  ofTuple h := by cases h
  notVerbatim h := by cases h

theorem gives_known {ns : String} (hname : IsDotted name) (hsimple : splitQualifier? name = none)
    (hsuffix : IsSuffix suffix) (h : b.known.namespaceOf? name args.length = some ns) :
    b.Gives ((TypeRef.named (some ns) name args).withSuffix suffix) where
  suffix := hsuffix
  name _ := ⟨hname, rfl⟩
  ofNamed _ := .inr ⟨hsimple, ns, h, rfl⟩
  ofUnresolved h := by cases h
  ofBare h := by rcases h with h | h <;> cases h
  ofTuple h := by cases h
  notVerbatim h := by cases h

theorem gives_unresolved (hname : IsDotted name) (hsuffix : IsSuffix suffix) (h : b.IsUnknown name args.length) :
    b.Gives ((TypeRef.unresolved name args).withSuffix suffix) where
  suffix := hsuffix
  name _ := ⟨hname, rfl⟩
  ofNamed h := by cases h
  ofUnresolved _ := ⟨rfl, h⟩
  ofBare h := by rcases h with h | h <;> cases h
  ofTuple h := by cases h
  notVerbatim h := by cases h

theorem gives_bare {kind : TypeRefKind} (hname : IsDotted name) (hsimple : splitQualifier? name = none)
    (hsuffix : IsSuffix suffix) (hk : kind = .keyword ∨ kind = .typeParameter)
    (h : isKeywordType name = true ↔ kind = .keyword) : b.Gives ((TypeRef.bare kind name).withSuffix suffix) where
  suffix := hsuffix
  name _ := ⟨hname, rfl⟩
  ofNamed h := by rcases hk with rfl | rfl <;> cases h
  ofUnresolved h := by rcases hk with rfl | rfl <;> cases h
  ofBare _ := ⟨rfl, rfl, hsimple, h⟩
  ofTuple h := by rcases hk with rfl | rfl <;> cases h
  notVerbatim h := by rcases hk with rfl | rfl <;> cases h

theorem gives_bindSimple (hb : b.IsNormal) (hname : IsDotted name) (hsimple : splitQualifier? name = none)
    (hsuffix : IsSuffix suffix) : b.Gives ((b.bindSimple scope name args).withSuffix suffix) := by
  rw [bindSimple]
  split
  next hk => exact gives_bare hname hsimple hsuffix (.inl rfl) (by simpa using (Bool.and_eq_true _ _ ▸ hk).2)
  next hk =>
    split
    next hp =>
      have hempty : args.isEmpty = true := (Bool.and_eq_true _ _ ▸ hp).1
      exact gives_bare hname hsimple hsuffix (.inr rfl) (by simpa [hempty] using hk)
    next =>
      cases hnear : b.nearest? scope name args.length with
      | some ns => exact gives_named hb hname hsuffix (contains_of_nearest? hnear)
      | none =>
        cases hknown : b.known.namespaceOf? name args.length with
        | some ns => exact gives_known hname hsimple hsuffix hknown
        | none => exact gives_unresolved hname hsuffix (by simpa [IsUnknown, hsimple] using hknown)

theorem gives_bindQualified {simple : String} (hb : b.IsNormal) (hname : IsDotted name)
    (h : splitQualifier? name = some (qualifier, simple)) (hsuffix : IsSuffix suffix) :
    b.Gives ((b.bindQualified scope qualifier simple args).withSuffix suffix) := by
  have hword : IsWord simple := isWord_of_splitQualifier? hname h
  have hnested : qualifier ++ "." ++ simple = name := (splitQualifier?_eq_some h).symm
  rw [bindQualified, hnested]
  cases hqualified : b.nearestQualified? scope qualifier simple args.length with
  | some ns => exact gives_named hb hword.isDotted hsuffix (contains_of_nearestQualified? hqualified)
  | none =>
    dsimp only
    cases hnear : b.nearest? scope name args.length with
    | some ns => exact gives_named hb hname hsuffix (contains_of_nearest? hnear)
    | none =>
      dsimp only
      split
      next hknown => exact gives_known (b := b) hword.isDotted (splitQualifier?_of_isWord hword) hsuffix hknown
      next hknown => exact gives_unresolved (b := b) hname hsuffix (by simpa [IsUnknown, h] using hknown)

theorem gives_bindName (hb : b.IsNormal) (hname : IsDotted name) (hsuffix : IsSuffix suffix) :
    b.Gives ((b.bindName scope name args).withSuffix suffix) := by
  rw [bindName]
  split
  next q s h => exact gives_bindQualified hb hname h hsuffix
  next h => exact gives_bindSimple hb hname h hsuffix

/-! ## Whole expressions -/

/-- The arguments of a name stay its arguments. -/
theorem bindSimple_args : (b.bindSimple scope name args).args = args := by
  rw [bindSimple]
  split
  next hk => exact (List.isEmpty_iff.mp (Bool.and_eq_true _ _ ▸ hk).1).symm
  next =>
    split
    next hp => exact (List.isEmpty_iff.mp (Bool.and_eq_true _ _ ▸ hp).1).symm
    next =>
      split
      · rfl
      · split <;> rfl

theorem bindQualified_args {simple : String} : (b.bindQualified scope qualifier simple args).args = args := by
  rw [bindQualified]
  split
  · rfl
  · dsimp only
    split
    · rfl
    · split <;> rfl

theorem bindName_args : (b.bindName scope name args).args = args := by
  rw [bindName]
  split
  · exact bindQualified_args
  · exact bindSimple_args

theorem name_bindSimple : (b.bindSimple scope name args).name = name := by
  rw [bindSimple]
  split
  · rfl
  · split
    · rfl
    · split
      · rfl
      · split <;> rfl

theorem name_bindQualified {simple : String} : (b.bindQualified scope qualifier simple args).name = simple ∨
    (b.bindQualified scope qualifier simple args).name = qualifier ++ "." ++ simple := by
  rw [bindQualified]
  split
  · exact .inl rfl
  · dsimp only
    split
    · exact .inr rfl
    · split
      · exact .inl rfl
      · exact .inr rfl

/-- A name stays as it is, or loses a qualifier. -/
theorem name_bindName : (b.bindName scope name args).name = name ∨
    ∃ qualifier, name = qualifier ++ "." ++ (b.bindName scope name args).name := by
  rw [bindName]
  split
  next qualifier simple h =>
    have hname := splitQualifier?_eq_some h
    rcases name_bindQualified with hsimple | hwhole
    · refine .inr ⟨qualifier, ?_⟩
      rw [hsimple]
      exact hname
    · exact .inl (hwhole.trans hname.symm)
  next => exact .inl name_bindSimple

mutual

/-- **Every node of a shaped expression is given by looking up.** -/
theorem gives_bind (hb : b.IsNormal) (scope : Scope) : ∀ e : TypeExpr, IsShaped e →
    (b.bind scope e).Everywhere b.Gives
  | .named name args suffix, h => by
    rw [bind, TypeRef.everywhere_iff]
    refine ⟨gives_bindName hb h.1 h.2.2, ?_⟩
    have hargs : ((b.bindName scope name (b.bindAll scope args)).withSuffix suffix).args = b.bindAll scope args :=
      bindName_args
    rw [hargs]
    exact gives_bindAll hb scope args h.2.1
  | .tuple elements suffix, h => by
    have hall := gives_bindElements hb scope elements h.2.1
    have hlength : (b.bindElements scope elements).length = elements.length := by simp [bindElements_eq_map]
    rw [bind, TypeRef.everywhere_iff]
    constructor
    · exact {
        suffix := h.2.2
        name := fun hk => absurd rfl hk
        ofNamed := fun hk => by cases hk
        ofUnresolved := fun hk => by cases hk
        ofBare := fun hk => by rcases hk with hk | hk <;> cases hk
        ofTuple := fun _ => by
          refine ⟨rfl, rfl, ?_, ?_, fun name? hname => ?_⟩
          · simpa [TypeRef.tuple, TypeRef.withSuffix, hlength] using h.1
          · simp [TypeRef.tuple, TypeRef.withSuffix]
          · obtain ⟨e, he, rfl⟩ := List.mem_map.mp hname
            exact (hall e he).2
        notVerbatim := fun hk => by cases hk }
    · intro a ha
      obtain ⟨e, he, rfl⟩ := List.mem_map.mp ha
      exact (hall e he).1
  | .verbatim _, h => h.elim

theorem gives_bindAll (hb : b.IsNormal) (scope : Scope) : ∀ es : List TypeExpr, AllShaped es →
    ∀ r ∈ b.bindAll scope es, r.Everywhere b.Gives
  | [], _ => by simp [bindAll]
  | e :: es, h => by
    rw [bindAll, List.forall_mem_cons]
    exact ⟨gives_bind hb scope e h.1, gives_bindAll hb scope es h.2⟩

theorem gives_bindElements (hb : b.IsNormal) (scope : Scope) : ∀ elements : List (TypeExpr × Option String),
    ElementsShaped elements → ∀ e ∈ b.bindElements scope elements,
      e.1.Everywhere b.Gives ∧ ∀ name ∈ e.2, IsWord name
  | [], _ => by simp [bindElements]
  | (e, name) :: elements, h => by
    rw [bindElements, List.forall_mem_cons]
    exact ⟨⟨gives_bind hb scope e h.1.1, h.1.2⟩, gives_bindElements hb scope elements h.2⟩

end

/-- The suffix of a replaced type parameter goes behind that of what takes its place. -/
theorem isMarks_append : ∀ (inside : Bool) (cs : List Char) {ds : List Char}, isMarks inside cs = true →
    isMarks false ds = true → isMarks inside (cs ++ ds) = true := by
  intro inside cs
  fun_induction isMarks inside cs with
  | case1 => exact fun _ hds => hds
  | case7 => exact fun h => absurd h (by simp)
  | case2 cs ih | case3 cs ih | case4 cs ih | case5 cs ih | case6 cs ih =>
    intro ds hcs hds
    rw [List.cons_append, isMarks]
    exact ih hcs hds

theorem Gives.withSuffix {r s : TypeRef} (hr : b.Gives r) (hs : b.Gives s) :
    b.Gives (s.withSuffix (s.suffix ++ r.suffix)) :=
  { hs with
    suffix := by
      rw [TypeRef.withSuffix, IsSuffix, String.toList_append]
      exact isMarks_append false _ hs.suffix hr.suffix }

theorem Gives.withArgs {r : TypeRef} (hargs : args.length = r.args.length) (hr : b.Gives r) :
    b.Gives { r with args } where
  suffix := hr.suffix
  name := hr.name
  ofNamed hk := by
    have h := hr.ofNamed hk
    rwa [TypeRef.arity, ← hargs] at h
  ofUnresolved hk := by
    have h := hr.ofUnresolved hk
    rwa [TypeRef.arity, ← hargs] at h
  ofBare hk := by
    obtain ⟨hns, hempty, h⟩ := hr.ofBare hk
    refine ⟨hns, List.eq_nil_of_length_eq_zero ?_, h⟩
    rw [hargs, hempty, List.length_nil]
  ofTuple hk := by
    have h := hr.ofTuple hk
    rwa [← hargs] at h
  notVerbatim := hr.notVerbatim

/-- **Substitution leaves every node given by looking up, if what it puts in is.** -/
theorem gives_substitute {f : String → Option TypeRef} (hf : ∀ name s, f name = some s → s.Everywhere b.Gives)
    {r : TypeRef} (hr : r.Everywhere b.Gives) : (r.substitute f).Everywhere b.Gives :=
  TypeRef.everywhere_substitute (fun _ _ hargs h => h.withArgs hargs) (fun _ _ hr hs => hr.withSuffix hs) hf r hr

end Binder

end ContractStubs
