import ContractStubs.Proofs.Binding.Reference

/-!
# Looking up a reference from its text

A reference is written without its namespaces. Looked up again from its text, in a scope whose using lines name those
namespaces, it comes back exactly where each of its names still denotes what it stands for (`Binder.Denotes`): where no
keyword, no type parameter and no other declared type takes the name (`bind_parse_toText_iff`).
-/

namespace ContractStubs

open TypeExpr

namespace TypeRef

mutual

/-- The expression as which a reference is written. -/
def expr : TypeRef → TypeExpr
  | ⟨_, _, args, suffix, names, .tuple⟩ => .tuple ((exprs args).zip names) suffix
  | ⟨name, _, _, _, _, .verbatim⟩ => .verbatim name
  | ⟨name, _, args, suffix, _, _⟩ => .named name (exprs args) suffix

/-- The expressions as which references are written. -/
def exprs : List TypeRef → List TypeExpr
  | [] => []
  | r :: rs => expr r :: exprs rs

end

theorem exprs_eq_map (rs : List TypeRef) : exprs rs = rs.map expr := by
  induction rs with
  | nil => rfl
  | cons r rs ih => rw [exprs, ih, List.map_cons]

theorem elementTexts_eq_map : ∀ {rs : List TypeRef} {names : List (Option String)}, names.length = rs.length →
    elementTexts rs names = (rs.zip names).map fun e => elementText e.1.toText e.2
  | [], _, _ => by simp [elementTexts]
  | r :: rs, name :: names, h => by
    rw [elementTexts, elementTexts_eq_map (by simpa using h), List.zip_cons_cons, List.map_cons]

end TypeRef

namespace Binder

variable {b : Binder} {scope : Scope} {r : TypeRef}

/-! ## The expression of a reference -/

theorem expr_of_named {name suffix : String} {ns : Option String} {args : List TypeRef} {names : List (Option String)}
    {kind : TypeRefKind} (ht : kind ≠ .tuple) (hv : kind ≠ .verbatim) :
    TypeRef.expr ⟨name, ns, args, suffix, names, kind⟩ = .named name (args.map TypeRef.expr) suffix := by
  rw [TypeRef.expr, TypeRef.exprs_eq_map]
  · exact ht
  · exact hv

/-- The expression has the text of the reference. -/
theorem toText_expr : ∀ r : TypeRef, r.Everywhere b.Gives → r.expr.toText = r.toText :=
  TypeRef.induction fun r ih hr => by
    obtain ⟨hnode, hargs⟩ := TypeRef.everywhere_iff.mp hr
    obtain ⟨name, ns, args, suffix, names, kind⟩ := r
    have htexts : (args.map TypeRef.expr).map toText = args.map TypeRef.toText := by
      rw [List.map_map]
      exact List.map_congr_left fun a ha => ih a ha (hargs a ha)
    by_cases hk : kind = .tuple
    · subst hk
      obtain ⟨-, -, -, hlength, -⟩ := hnode.ofTuple rfl
      have hmap : (args.map TypeRef.expr).zip names = (args.zip names).map fun e => (e.1.expr, e.2) := by
        rw [List.zip_map_left]
        rfl
      rw [TypeRef.expr, TypeRef.toText, toText, TypeRef.exprs_eq_map, TypeRef.elementTexts_eq_map hlength,
        elementTexts_eq_map, hmap, List.map_map]
      congr 4
      refine List.map_congr_left fun e he => ?_
      have ha : e.1 ∈ args := (List.of_mem_zip (show (e.1, e.2) ∈ args.zip names from he)).1
      exact congrArg (elementText · e.2) (ih e.1 ha (hargs e.1 ha))
    · rw [expr_of_named hk hnode.notVerbatim]
      cases args with
      | nil =>
        rw [TypeRef.toText, List.map_nil, toText]
        exact hk
      | cons arg args =>
        rw [List.map_cons, List.map_cons] at htexts
        rw [TypeRef.toText, List.map_cons, toText, argTexts_eq_map, TypeRef.argTexts_eq_map, htexts, List.map_cons]
        exact hk

/-- The expression has a shape. -/
theorem isShaped_expr : ∀ r : TypeRef, r.Everywhere b.Gives → IsShaped r.expr :=
  TypeRef.induction fun r ih hr => by
    obtain ⟨hnode, hargs⟩ := TypeRef.everywhere_iff.mp hr
    obtain ⟨name, ns, args, suffix, names, kind⟩ := r
    by_cases hk : kind = .tuple
    · subst hk
      obtain ⟨-, -, htwo, hlength, hnames⟩ := hnode.ofTuple rfl
      rw [TypeRef.expr, TypeRef.exprs_eq_map]
      refine ⟨?_, elementsShaped_iff.mpr fun e he => ?_, hnode.suffix⟩
      · simpa [hlength] using htwo
      · obtain ⟨hfirst, hsecond⟩ := List.of_mem_zip (show (e.1, e.2) ∈ _ from he)
        obtain ⟨a, ha, he'⟩ := List.mem_map.mp hfirst
        exact ⟨he' ▸ ih a ha (hargs a ha), hnames e.2 hsecond⟩
    · rw [expr_of_named hk hnode.notVerbatim]
      refine ⟨(hnode.name hk).1, allShaped_iff.mpr fun e he => ?_, hnode.suffix⟩
      obtain ⟨a, ha, rfl⟩ := List.mem_map.mp he
      exact ih a ha (hargs a ha)

/-- A reference is read from its text as its expression. -/
theorem parse_toText (hr : r.Everywhere b.Gives) : parse r.toText = r.expr := by
  rw [← toText_expr r hr, parse_toText_of_isShaped (isShaped_expr r hr)]

/-! ## One name -/

/-- The declared type that a written name denotes: its namespace and its name. -/
def declared? (b : Binder) (scope : Scope) (name : String) (arity : Nat) : Option (Option String × String) :=
  match (splitQualifier? name).bind fun (qualifier, simple) =>
      (b.nearestQualified? scope qualifier simple arity).map fun ns => (some ns, simple) with
  | some found => some found
  | none => (b.nearest? scope name arity).map fun ns => (ns, name)

/-- A written name is a keyword or a type parameter. -/
def IsReserved (scope : Scope) (name : String) (arity : Nat) : Prop :=
  arity = 0 ∧ splitQualifier? name = none ∧ (isKeywordType name = true ∨ name ∈ scope.typeParameters)

/-- What a node of a reference stands for is what its name denotes in a scope. -/
def Denotes (b : Binder) (scope : Scope) (r : TypeRef) : Prop :=
  match r.kind with
  | .typeParameter => r.name ∈ scope.typeParameters
  | .named => ¬IsReserved scope r.name r.arity ∧
      ∀ found, b.declared? scope r.name r.arity = some found → found = (r.namespaceName?, r.name)
  | .unresolved => ¬IsReserved scope r.name r.arity ∧ b.declared? scope r.name r.arity = none
  | .keyword | .tuple | .verbatim => True

variable {name : String} {args : List TypeRef} {arity : Nat}

theorem contains_of_declared? {ns : Option String} {found : String}
    (h : b.declared? scope name arity = some (ns, found)) : b.index.contains ns found arity = true := by
  rw [declared?] at h
  split at h
  next hq =>
    cases h
    obtain ⟨⟨qualifier, simple⟩, -, hq⟩ := Option.bind_eq_some_iff.mp hq
    obtain ⟨ns, hns, he⟩ := Option.map_eq_some_iff.mp hq
    cases he
    exact contains_of_nearestQualified? hns
  next =>
    obtain ⟨ns, hns, he⟩ := Option.map_eq_some_iff.mp h
    cases he
    exact contains_of_nearest? hns

/-- A name that is declared in a searched namespace denotes some declared type. -/
theorem declared?_ne_none {ns : Option String} (h : b.index.contains ns name arity = true)
    (hns : ns ∈ scope.searchedNamespaces) : b.declared? scope name arity ≠ none := by
  intro hnone
  have hnear : b.nearest? scope name arity = none := by
    rw [declared?] at hnone
    split at hnone
    · cases hnone
    · exact Option.map_eq_none_iff.mp hnone
  exact List.find?_eq_none.mp hnear ns hns h

/-- In the scope of a type parameter its bare name gives just that. -/
theorem bindName_of_mem_typeParameters (hkeyword : isKeywordType name = false) (hsimple : splitQualifier? name = none)
    (h : name ∈ scope.typeParameters) : b.bindName scope name [] = .bare .typeParameter name := by
  rw [bindName, hsimple]
  simp [bindSimple, hkeyword, h]

/-- A keyword or a type parameter is taken before all else: what a reserved name gives rests on the name alone. -/
theorem bindName_reserved (h : IsReserved scope name args.length) :
    b.bindName scope name args = .bare (if isKeywordType name then .keyword else .typeParameter) name := by
  obtain ⟨hempty, hsimple, hk⟩ := h
  obtain rfl : args = [] := List.eq_nil_of_length_eq_zero hempty
  by_cases hkeyword : isKeywordType name = true
  · simp [bindName, hsimple, bindSimple, hkeyword]
  · rw [bindName_of_mem_typeParameters (Bool.eq_false_iff.mpr hkeyword) hsimple (hk.resolve_left hkeyword),
      if_neg hkeyword]

theorem bindName_of_isReserved (h : IsReserved scope name args.length) :
    (b.bindName scope name args).kind = .keyword ∨ (b.bindName scope name args).kind = .typeParameter := by
  rw [bindName_reserved h]
  cases isKeywordType name
  · exact .inr rfl
  · exact .inl rfl

theorem bindSimple_of_not_isReserved (hr : ¬IsReserved scope name args.length) (hsimple : splitQualifier? name = none) :
    b.bindSimple scope name args =
      match b.nearest? scope name args.length with
      | some ns => .named ns name args
      | none =>
        match b.known.namespaceOf? name args.length with
        | some ns => .named (some ns) name args
        | none => .unresolved name args := by
  have hkeyword : ¬(args.isEmpty && isKeywordType name) = true := fun h => by
    rw [Bool.and_eq_true, List.isEmpty_iff] at h
    exact hr ⟨by rw [h.1, List.length_nil], hsimple, .inl h.2⟩
  have hparameter : ¬(args.isEmpty && scope.typeParameters.contains name) = true := fun h => by
    rw [Bool.and_eq_true, List.isEmpty_iff, List.contains_iff_mem] at h
    exact hr ⟨by rw [h.1, List.length_nil], hsimple, .inr h.2⟩
  exact (if_neg hkeyword).trans (if_neg hparameter)

/-- Then the declared type that the name denotes. -/
theorem bindName_of_declared? {ns : Option String} {found : String} (hr : ¬IsReserved scope name args.length)
    (h : b.declared? scope name args.length = some (ns, found)) :
    b.bindName scope name args = .named ns found args := by
  rw [bindName]
  rw [declared?] at h
  cases hsplit : splitQualifier? name with
  | none =>
    rw [hsplit] at h
    obtain ⟨near, hnear, he⟩ := Option.map_eq_some_iff.mp h
    cases he
    dsimp only
    rw [bindSimple_of_not_isReserved hr hsplit, hnear]
  | some parts =>
    obtain ⟨qualifier, simple⟩ := parts
    rw [hsplit] at h
    dsimp only [Option.bind_some] at h ⊢
    rw [bindQualified, ← splitQualifier?_eq_some hsplit]
    cases hqualified : b.nearestQualified? scope qualifier simple args.length with
    | some near =>
      rw [hqualified] at h
      cases h
      rfl
    | none =>
      rw [hqualified] at h
      obtain ⟨near, hnear, he⟩ := Option.map_eq_some_iff.mp h
      cases he
      dsimp only
      rw [hnear]

/-- Then a well-known type; and what is none of these stays as it is written. -/
theorem bindName_of_not_declared? (hr : ¬IsReserved scope name args.length)
    (h : b.declared? scope name args.length = none) :
    (∃ known simple, b.bindName scope name args = .named (some known) simple args ∧
      b.known.namespaceOf? simple args.length = some known ∧
      ((splitQualifier? name = none ∧ simple = name) ∨ splitQualifier? name = some (known, simple))) ∨
    b.bindName scope name args = .unresolved name args ∧ b.IsUnknown name args.length := by
  rw [bindName, IsUnknown]
  rw [declared?] at h
  cases hsplit : splitQualifier? name with
  | none =>
    rw [hsplit] at h
    have hnear : b.nearest? scope name args.length = none := Option.map_eq_none_iff.mp h
    dsimp only
    rw [bindSimple_of_not_isReserved hr hsplit, hnear]
    cases hknown : b.known.namespaceOf? name args.length with
    | some known => exact .inl ⟨known, name, rfl, hknown, .inl ⟨rfl, rfl⟩⟩
    | none => exact .inr ⟨rfl, rfl⟩
  | some parts =>
    obtain ⟨qualifier, simple⟩ := parts
    rw [hsplit] at h
    dsimp only [Option.bind_some] at h ⊢
    rw [bindQualified, ← splitQualifier?_eq_some hsplit]
    cases hqualified : b.nearestQualified? scope qualifier simple args.length with
    | some near => rw [hqualified] at h; cases h
    | none =>
      rw [hqualified] at h
      have hnear : b.nearest? scope name args.length = none := Option.map_eq_none_iff.mp h
      dsimp only
      rw [hnear]
      dsimp only
      by_cases hknown : b.known.namespaceOf? simple args.length = some qualifier
      · exact .inl ⟨qualifier, simple, if_pos hknown, hknown, .inr rfl⟩
      · exact .inr ⟨if_neg hknown, hknown⟩

/-- A name that is neither reserved nor declared nor unknown would be well-known; all that is bound is one of these. -/
theorem kind_bindName_of_not_isReserved (hr : ¬IsReserved scope name args.length) :
    (b.bindName scope name args).kind = .named ∨ (b.bindName scope name args).kind = .unresolved := by
  cases h : b.declared? scope name args.length with
  | some found => exact .inl (by rw [bindName_of_declared? hr h]; rfl)
  | none =>
    rcases bindName_of_not_declared? hr h with ⟨known, simple, he, -⟩ | ⟨he, -⟩
    · exact .inl (by rw [he]; rfl)
    · exact .inr (by rw [he]; rfl)

theorem mem_searchedNamespaces {ns : Option String} (h : ∀ n, ns = some n → n ∈ scope.usings) :
    ns ∈ scope.searchedNamespaces := by
  cases ns with
  | none => simp [Scope.searchedNamespaces, Scope.enclosingNamespaces]
  | some n => simp [Scope.searchedNamespaces, h n rfl]

section Again

variable {ns : Option String} {suffix : String}

/-- What a reserved name gives is no declared and no unresolved type. -/
theorem ne_of_isReserved (hr : IsReserved scope r.name r.args.length) (hk : r.kind = .named ∨ r.kind = .unresolved) :
    (b.bindName scope r.name r.args).withSuffix r.suffix ≠ r := by
  intro he
  have hkind : ((b.bindName scope r.name r.args).withSuffix r.suffix).kind = r.kind := congrArg TypeRef.kind he
  change (b.bindName scope r.name r.args).kind = r.kind at hkind
  rcases bindName_of_isReserved (b := b) hr with h | h <;> rw [h] at hkind <;>
    rcases hk with hk | hk <;> cases hkind.trans hk

/-- A type parameter is read again exactly where it is in scope. -/
theorem bindName_eq_iff_of_typeParameter (hg : b.Gives ⟨name, ns, args, suffix, [], .typeParameter⟩) :
    (b.bindName scope name args).withSuffix suffix = ⟨name, ns, args, suffix, [], .typeParameter⟩ ↔
      name ∈ scope.typeParameters := by
  obtain ⟨hns, hargs, hsimple, hkeyword⟩ := hg.ofBare (.inr rfl)
  obtain rfl : ns = none := hns
  obtain rfl : args = [] := hargs
  have hnot : isKeywordType name = false := by simpa using hkeyword
  by_cases hp : name ∈ scope.typeParameters
  · exact iff_of_true (by rw [bindName_of_mem_typeParameters hnot hsimple hp]; rfl) hp
  · have hr : ¬IsReserved scope name ([] : List TypeRef).length := by simp [IsReserved, hnot, hp]
    refine iff_of_false (fun he => ?_) hp
    have hk : (b.bindName scope name []).kind = .typeParameter := congrArg TypeRef.kind he
    rcases kind_bindName_of_not_isReserved (b := b) hr with h | h <;> rw [hk] at h <;> cases h

/-- A well-known type that nothing declared hides is read again. -/
theorem bindName_eq_of_known (hr : ¬IsReserved scope name args.length)
    (hd : b.declared? scope name args.length = none) (hsimple : splitQualifier? name = none) {known : String}
    (hknown : b.known.namespaceOf? name args.length = some known) :
    b.bindName scope name args = .named (some known) name args := by
  rcases bindName_of_not_declared? hr hd with ⟨known', simple, he, hknown', ⟨-, rfl⟩ | hsplit⟩ | ⟨-, hunknown⟩
  · rw [he, ← Option.some.inj (hknown.symm.trans hknown')]
  · cases hsimple.symm.trans hsplit
  · rw [IsUnknown, hsimple] at hunknown
    cases hunknown.symm.trans hknown

/-- A named type is read again exactly where its name denotes it or nothing declared. -/
theorem bindName_eq_iff_of_named (hb : b.IsNormal) (hg : b.Gives ⟨name, ns, args, suffix, [], .named⟩)
    (hused : ∀ n, ns = some n → n ∈ scope.usings) :
    (b.bindName scope name args).withSuffix suffix = ⟨name, ns, args, suffix, [], .named⟩ ↔
      ¬IsReserved scope name args.length ∧
        ∀ found, b.declared? scope name args.length = some found → found = (ns, name) := by
  by_cases hr : IsReserved scope name args.length
  · exact iff_of_false (ne_of_isReserved (r := ⟨name, ns, args, suffix, [], .named⟩) hr (.inl rfl)) fun h => h.1 hr
  · cases hd : b.declared? scope name args.length with
    | some found =>
      obtain ⟨near, declared⟩ := found
      have hfilter := hb.filter_of_contains (contains_of_declared? hd)
      rw [bindName_of_declared? hr hd]
      constructor
      · intro he
        have hname : declared = name := congrArg TypeRef.name he
        have hns : near.filter (· ≠ "") = ns := congrArg TypeRef.namespaceName? he
        refine ⟨hr, fun found hfound => ?_⟩
        rw [← Option.some.inj hfound, hname, ← hns, hfilter]
      · intro h
        cases h.2 _ rfl
        simp only [TypeRef.named, TypeRef.withSuffix, hfilter]
    | none =>
      refine iff_of_true ?_ ⟨hr, fun found hfound => by cases hfound⟩
      rcases hg.ofNamed rfl with hdeclared | ⟨hsimple, known, hknown, hns⟩
      · exact absurd hd (declared?_ne_none hdeclared (mem_searchedNamespaces hused))
      · obtain rfl : ns = (some known).filter (· ≠ "") := hns
        rw [bindName_eq_of_known hr hd hsimple hknown]
        rfl

/-- An unresolved type is read again exactly where nothing of its name is declared. -/
theorem bindName_eq_iff_of_unresolved (hg : b.Gives ⟨name, ns, args, suffix, [], .unresolved⟩) :
    (b.bindName scope name args).withSuffix suffix = ⟨name, ns, args, suffix, [], .unresolved⟩ ↔
      ¬IsReserved scope name args.length ∧ b.declared? scope name args.length = none := by
  obtain ⟨hns, hunknown⟩ := hg.ofUnresolved rfl
  obtain rfl : ns = none := hns
  by_cases hr : IsReserved scope name args.length
  · exact iff_of_false (ne_of_isReserved (r := ⟨name, none, args, suffix, [], .unresolved⟩) hr (.inr rfl))
      fun h => h.1 hr
  · cases hd : b.declared? scope name args.length with
    | some found =>
      refine iff_of_false (fun he => ?_) fun h => by cases h.2
      have hk : (b.bindName scope name args).kind = .unresolved := congrArg TypeRef.kind he
      rw [bindName_of_declared? hr hd] at hk
      cases hk
    | none =>
      refine iff_of_true ?_ ⟨hr, rfl⟩
      rcases bindName_of_not_declared? hr hd with ⟨known, simple, -, hknown, ⟨hsplit, rfl⟩ | hsplit⟩ | ⟨he, -⟩
      · rw [IsUnknown, hsplit] at hunknown
        cases hunknown.symm.trans hknown
      · rw [IsUnknown, hsplit] at hunknown
        exact absurd hknown hunknown
      · rw [he]
        rfl

end Again

/-- A name that is looked up again, its arguments being back already, gives the node exactly where it denotes it. -/
theorem bindName_eq_iff (hb : b.IsNormal) (hg : b.Gives r) (ht : r.kind ≠ .tuple)
    (hused : ∀ ns, r.namespaceName? = some ns → ns ∈ scope.usings) :
    (b.bindName scope r.name r.args).withSuffix r.suffix = r ↔ b.Denotes scope r := by
  have hnames := (hg.name ht).2
  obtain ⟨name, ns, args, suffix, names, kind⟩ := r
  obtain rfl : names = [] := hnames
  cases kind with
  | tuple => exact absurd rfl ht
  | verbatim => exact absurd rfl hg.notVerbatim
  | keyword =>
    obtain ⟨hns, hargs, hsimple, hkeyword⟩ := hg.ofBare (.inl rfl)
    obtain rfl : ns = none := hns
    obtain rfl : args = [] := hargs
    have hbind : b.bindName scope name [] = .bare .keyword name := by
      rw [bindName, hsimple]
      exact if_pos (by simpa using hkeyword)
    exact iff_of_true (by rw [hbind]; rfl) trivial
  | typeParameter => exact bindName_eq_iff_of_typeParameter hg
  | named => exact bindName_eq_iff_of_named hb hg hused
  | unresolved => exact bindName_eq_iff_of_unresolved hg

/-! ## Whole references -/

theorem bind_expr_of_tuple {suffix : String} {names : List (Option String)} (hlength : names.length = args.length) :
    b.bind scope (TypeRef.expr ⟨"", none, args, suffix, names, .tuple⟩) =
      ⟨"", none, args.map fun a => b.bind scope a.expr, suffix, names, .tuple⟩ := by
  have hmap : (args.map TypeRef.expr).zip names = (args.zip names).map fun e => (e.1.expr, e.2) := by
    rw [List.zip_map_left]
    rfl
  have hfirst : (args.zip names).map (fun e => b.bind scope e.1.expr) = args.map fun a => b.bind scope a.expr := by
    have hzip : (args.zip names).map (·.1) = args := List.map_fst_zip (by omega)
    have h := congrArg (List.map fun a : TypeRef => b.bind scope a.expr) hzip
    rwa [List.map_map] at h
  have hsecond : (args.zip names).map (·.2) = names := List.map_snd_zip (by omega)
  rw [TypeRef.expr, TypeRef.exprs_eq_map, bind, bindElements_eq_map, hmap, List.map_map, TypeRef.tuple, List.map_map,
    List.map_map, TypeRef.withSuffix]
  exact congrArg₂ (fun as ns => (⟨"", none, as, suffix, ns, .tuple⟩ : TypeRef)) hfirst hsecond

/-- A reference is looked up from its expression exactly where each of its names denotes what it stands for. -/
theorem bind_expr_eq_iff (hb : b.IsNormal) : ∀ r : TypeRef, r.Everywhere b.Gives →
    (∀ ns ∈ r.namespaces, ns ∈ scope.usings) → (b.bind scope r.expr = r ↔ r.Everywhere (b.Denotes scope)) :=
  TypeRef.induction fun r ih hr hused => by
    obtain ⟨hnode, hargs⟩ := TypeRef.everywhere_iff.mp hr
    have hih : ∀ a ∈ r.args, (b.bind scope a.expr = a ↔ a.Everywhere (b.Denotes scope)) := fun a ha =>
      ih a ha (hargs a ha) fun ns hns => hused ns (TypeRef.mem_namespaces.mpr (.inr ⟨a, ha, hns⟩))
    have hback : r.args.map (fun a => b.bind scope a.expr) = r.args ↔ ∀ a ∈ r.args, a.Everywhere (b.Denotes scope) := by
      have hpointwise := List.map_inj_left (l := r.args) (f := fun a => b.bind scope a.expr) (g := id)
      rw [List.map_id] at hpointwise
      exact hpointwise.trans (forall₂_congr hih)
    rw [TypeRef.everywhere_iff, ← hback]
    by_cases hk : r.kind = .tuple
    · obtain ⟨hname, hns, -, hlength, -⟩ := hnode.ofTuple hk
      obtain ⟨name, ns, args, suffix, names, kind⟩ := r
      obtain rfl : kind = .tuple := hk
      obtain rfl : name = "" := hname
      obtain rfl : ns = none := hns
      rw [bind_expr_of_tuple hlength]
      exact ⟨fun he => ⟨trivial, congrArg TypeRef.args he⟩, fun h => by rw [h.2]⟩
    · have hname := bindName_eq_iff hb hnode hk fun ns hns => hused ns (TypeRef.mem_namespaces.mpr (.inl hns))
      have hexpr : b.bind scope r.expr =
          (b.bindName scope r.name (r.args.map fun a => b.bind scope a.expr)).withSuffix r.suffix := by
        obtain ⟨name, ns, args, suffix, names, kind⟩ := r
        rw [expr_of_named hk hnode.notVerbatim, bind, bindAll_eq_map, List.map_map]
        rfl
      rw [hexpr]
      constructor
      · intro he
        have hlooked := congrArg TypeRef.args he
        rw [TypeRef.withSuffix, bindName_args] at hlooked
        have hsame : r.args.map (fun a => b.bind scope a.expr) = r.args := hlooked
        rw [hsame] at he
        exact ⟨hname.mp he, hsame⟩
      · intro h
        rw [h.2]
        exact hname.mpr h.1

/-- **A reference is looked up from its text exactly where each of its names denotes what it stands for.** -/
theorem bind_parse_toText_iff (hb : b.IsNormal) (hr : r.Everywhere b.Gives)
    (hused : ∀ ns ∈ r.namespaces, ns ∈ scope.usings) :
    b.bind scope (parse r.toText) = r ↔ r.Everywhere (b.Denotes scope) := by
  rw [parse_toText hr, bind_expr_eq_iff hb r hr hused]

end Binder

end ContractStubs
