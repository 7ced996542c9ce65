import ContractStubs.Proofs.Binding.Places
import ContractStubs.Proofs.Samples

/-!
# What looking up keeps

Looking up loses nothing that was written. Every place of a type expression is a place of what it is looked up as, and
the node there keeps what is written (`Keeps`): a text of unknown shape, the names of tuple elements, all marks, and the
name itself, or all of it but a qualifier that the node has for its namespace. Where no name has a dot in it, the
reference has the text of the expression (`Binder.bind_keeps`).
-/

namespace ContractStubs

/-! ## Nodes -/

/-- The namespace of the reference is the qualifier, or ends with a dot and the qualifier. No namespace is the one
without a name. -/
def TypeRef.IsIn (r : TypeRef) (qualifier : String) : Prop :=
  r.namespaceName? = (some qualifier).filter (· ≠ "") ∨ ∃ outer, r.namespaceName? = some (outer ++ "." ++ qualifier)

/-- The reference has the written name, or what stands behind its last dot and the rest for its namespace. -/
def TypeRef.KeepsName (r : TypeRef) (name : String) : Prop :=
  r.name = name ∨ ∃ qualifier, name = qualifier ++ "." ++ r.name ∧ '.' ∉ r.name.toList ∧ r.IsIn qualifier

/-- The node of a reference keeps what is written at a node of a type expression. -/
inductive Keeps : TypeExpr → TypeRef → Prop
  | named {name suffix : String} {args : List TypeExpr} {r : TypeRef} : r.kind ≠ .tuple → r.kind ≠ .verbatim →
      r.args.length = args.length → r.elementNames = [] → r.suffix = suffix → r.KeepsName name →
      Keeps (.named name args suffix) r
  | tuple {elements : List (TypeExpr × Option String)} {suffix : String} {r : TypeRef} : r.kind = .tuple →
      r.name = "" → r.namespaceName? = none → r.args.length = elements.length → r.elementNames = elements.map (·.2) →
      r.suffix = suffix → Keeps (.tuple elements suffix) r
  | verbatim (text : String) : Keeps (.verbatim text) (.bare .verbatim text)

namespace TypeExpr

/-- No name in the expression has a dot in it. -/
def Undotted (t : TypeExpr) : Prop := t.EachName fun name _ => '.' ∉ name.toList

/-- The reference has the places of the expression, and keeps what is written at each. -/
def KeptBy (t : TypeExpr) (r : TypeRef) : Prop := ∀ place, Option.Rel Keeps (t.at? place) (r.at? place)

/-! ## The text of what is kept -/

variable {t : TypeExpr} {r : TypeRef}

theorem KeptBy.node (h : t.KeptBy r) : Keeps t r := by
  have hroot := h []
  rw [at?, TypeRef.at?] at hroot
  cases hroot with
  | some hroot => exact hroot

theorem length_args_of_keeps (h : Keeps t r) : r.args.length = t.children.length := by
  cases h with
  | named _ _ hlength => exact hlength
  | tuple _ _ _ hlength => rw [hlength, children, List.length_map]
  | verbatim text => rfl

/-- What is inside is kept by the arguments. -/
theorem KeptBy.inside (h : t.KeptBy r) {i : Nat} (hi : i < t.children.length) (hi' : i < r.args.length) :
    t.children[i].KeptBy r.args[i] := by
  intro place
  have hinside := h (i :: place)
  rw [at?, TypeRef.at?, List.getElem?_eq_getElem hi, List.getElem?_eq_getElem hi'] at hinside
  exact hinside

/-- A name without a dot is kept as a whole. -/
theorem name_of_keepsName {name : String} (h : r.KeepsName name) (hdot : '.' ∉ name.toList) : r.name = name := by
  rcases h with h | ⟨qualifier, he, -⟩
  · exact h
  · rw [he] at hdot
    simp at hdot

/-- What stands behind a name and its arguments is written alike. -/
theorem toText_of_named {name suffix : String} {args : List TypeExpr} (hk : r.kind ≠ .tuple) (hname : r.name = name)
    (hargs : r.args.map TypeRef.toText = args.map toText) (hsuffix : r.suffix = suffix) :
    r.toText = (named name args suffix).toText := by
  obtain ⟨name', ns, args', suffix', names, kind⟩ := r
  obtain rfl : name' = name := hname
  obtain rfl : suffix' = suffix := hsuffix
  cases args with
  | nil =>
    obtain rfl : args' = [] := List.map_eq_nil_iff.mp hargs
    rw [TypeRef.toText, toText]
    exact hk
  | cons arg args =>
    obtain ⟨arg', args', rfl, harg, hrest⟩ := List.map_eq_cons_iff.mp hargs
    rw [TypeRef.toText, toText, argTexts_eq_map, TypeRef.argTexts_eq_map, harg, hrest]
    exact hk

/-- Tuples are written alike. -/
theorem toText_of_tuple {elements : List (TypeExpr × Option String)} {suffix : String} (hk : r.kind = .tuple)
    (hnames : r.elementNames = elements.map (·.2))
    (hargs : r.args.map TypeRef.toText = (elements.map (·.1)).map toText) (hsuffix : r.suffix = suffix) :
    r.toText = (tuple elements suffix).toText := by
  obtain ⟨name, ns, args, suffix', names, kind⟩ := r
  obtain rfl : kind = .tuple := hk
  obtain rfl : names = elements.map (·.2) := hnames
  obtain rfl : suffix' = suffix := hsuffix
  have hlength : (elements.map (·.2)).length = args.length := by
    simpa using (congrArg List.length hargs).symm
  have htexts : (args.zip (elements.map (·.2))).map (fun e => elementText e.1.toText e.2) =
      elements.map fun e => elementText e.1.toText e.2 := by
    have hzip : (args.zip (elements.map (·.2))).map (fun e => elementText e.1.toText e.2) =
        ((args.map TypeRef.toText).zip (elements.map (·.2))).map fun e => elementText e.1 e.2 := by
      rw [List.zip_map_left, List.map_map]
      rfl
    rw [hzip, hargs, List.map_map, List.zip_map', List.map_map]
    rfl
  rw [TypeRef.toText, toText, TypeRef.elementTexts_eq_map hlength, elementTexts_eq_map, htexts]

/-- **A reference that keeps an expression without dots has its text.** -/
theorem toText_of_keptBy : ∀ (t : TypeExpr) (r : TypeRef), t.KeptBy r → t.Undotted → r.toText = t.toText :=
  induction fun t ih r h hdots => by
    have hargs : r.args.map TypeRef.toText = t.children.map toText := by
      have hlength := length_args_of_keeps h.node
      refine List.ext_getElem (by rw [List.length_map, List.length_map, hlength]) fun i hi hi' => ?_
      rw [List.getElem_map, List.getElem_map]
      rw [List.length_map] at hi hi'
      have hc : t.children[i] ∈ t.children := List.getElem_mem hi'
      exact ih _ hc _ (h.inside hi' hi) (hdots.of_mem hc)
    cases h.node with
    | named hk _ _ _ hsuffix hname =>
      exact toText_of_named hk (name_of_keepsName hname hdots.root) hargs hsuffix
    | tuple hk _ _ _ hnames hsuffix => exact toText_of_tuple hk hnames hargs hsuffix
    | verbatim text => exact String.append_empty

end TypeExpr

namespace Binder

variable {b : Binder} {scope : Scope} {name qualifier simple : String} {args : List TypeRef}

/-! ## Looking up one name -/

theorem dot_not_mem_of_splitQualifier? (h : splitQualifier? name = some (qualifier, simple)) : '.' ∉ simple.toList := by
  rw [splitQualifier?] at h
  split at h
  next last part parts hrev =>
    cases h
    have hpiece : simple ∈ textPieces (· = '.') name := by
      rw [← List.mem_reverse, hrev]
      exact List.mem_cons_self
    intro hdot
    simpa using eq_false_of_mem_textPieces hpiece '.' hdot
  next => cases h

/-- A declared type that is found through its qualifier is in a namespace that ends with it. -/
theorem isIn_of_nearestQualified? {ns : String} (h : b.nearestQualified? scope qualifier name args.length = some ns) :
    (TypeRef.named (some ns) name args).IsIn qualifier := by
  obtain ⟨around, -, rfl⟩ := List.mem_map.mp (List.mem_of_find?_eq_some h)
  cases around with
  | none => exact .inl rfl
  | some outer =>
    refine .inr ⟨outer, ?_⟩
    have hne : outer ++ "." ++ qualifier ≠ "" := fun he => by
      have hchars := congrArg String.toList he
      simp at hchars
    simp [TypeRef.named, qualifiedFrom, hne]

/-- **A name is kept, or all of it but a qualifier that is kept as the namespace.** -/
theorem keepsName_bindName : (b.bindName scope name args).KeepsName name := by
  rw [bindName]
  cases hsplit : splitQualifier? name with
  | none => exact .inl name_bindSimple
  | some parts =>
    obtain ⟨qualifier, simple⟩ := parts
    have hname : name = qualifier ++ "." ++ simple := splitQualifier?_eq_some hsplit
    have hdot : '.' ∉ simple.toList := dot_not_mem_of_splitQualifier? hsplit
    dsimp only
    rw [bindQualified]
    cases hqualified : b.nearestQualified? scope qualifier simple args.length with
    | some ns => exact .inr ⟨qualifier, hname, hdot, isIn_of_nearestQualified? hqualified⟩
    | none =>
      dsimp only
      cases b.nearest? scope (qualifier ++ "." ++ simple) args.length with
      | some ns => exact .inl hname.symm
      | none =>
        dsimp only
        split
        · exact .inr ⟨qualifier, hname, hdot, .inl rfl⟩
        · exact .inl hname.symm

/-- A name is looked up as no tuple and as no text of unknown shape, and has no names of elements. -/
theorem isName_bindName : (b.bindName scope name args).kind ≠ .tuple ∧ (b.bindName scope name args).kind ≠ .verbatim ∧
    (b.bindName scope name args).elementNames = [] := by
  by_cases hr : IsReserved scope name args.length
  · rw [bindName_reserved hr]
    cases isKeywordType name <;> simp [TypeRef.bare]
  · cases h : b.declared? scope name args.length with
    | some found =>
      rw [bindName_of_declared? hr h]
      simp [TypeRef.named]
    | none =>
      rcases bindName_of_not_declared? hr h with ⟨known, simple, he, -⟩ | ⟨he, -⟩
      · rw [he]
        simp [TypeRef.named]
      · rw [he]
        simp [TypeRef.unresolved]

/-! ## Looking up an expression -/

/-- A node is kept. -/
theorem keeps_bind (b : Binder) (scope : Scope) (t : TypeExpr) : Keeps t (b.bind scope t) := by
  have hargs : (b.bind scope t).args.length = t.children.length := by rw [args_bind, List.length_map]
  cases t with
  | verbatim text => exact .verbatim text
  | tuple elements suffix =>
    have hnames : (b.bind scope (.tuple elements suffix)).elementNames = elements.map (·.2) := by
      change (b.bindElements scope elements).map (·.2) = _
      rw [bindElements_eq_map, List.map_map]
      rfl
    exact .tuple rfl rfl rfl (hargs.trans (List.length_map _)) hnames rfl
  | named name args suffix =>
    obtain ⟨htuple, hverbatim, hnames⟩ := @isName_bindName b scope name (b.bindAll scope args)
    exact .named htuple hverbatim hargs hnames rfl keepsName_bindName

/-- **Looking up keeps all that is written, at every place; and where no name has a dot, the text stays as it is.** -/
theorem bind_keeps (b : Binder) (scope : Scope) (t : TypeExpr) :
    t.KeptBy (b.bind scope t) ∧ (t.Undotted → (b.bind scope t).toText = t.toText) := by
  have hkept : t.KeptBy (b.bind scope t) := fun place => by
    rw [at?_bind]
    cases t.at? place with
    | none => exact .none
    | some c => exact .some (keeps_bind b scope c)
  exact ⟨hkept, TypeExpr.toText_of_keptBy t _ hkept⟩

/-- What is declared is a customer in `Shop.Models`. -/
def customerBinder : Binder := ⟨⟨[⟨some "Shop.Models", "Customer", 0⟩]⟩, .withExtra []⟩

/-- The scope in a generic type of `Shop`, with a using line for the models. -/
def customerScope : Scope := ⟨some "Shop", ["Shop.Models"], ["T"]⟩

theorem customers_kept :
    customerBinder.bind customerScope (.named "Models.Customer" [] "?") =
        (TypeRef.named (some "Shop.Models") "Customer" []).withSuffix "?" ∧
      customersExpr.Undotted ∧ (customerBinder.bind customerScope customersExpr).toText = "(Customer? who, List<T>[])" ∧
      (customerBinder.bind customerScope customersExpr).namespaces = ["Shop.Models", "System.Collections.Generic"] := by
  have hundotted : customersExpr.Undotted := by
    rw [customersExpr, TypeExpr.Undotted, TypeExpr.eachName_tuple]
    simp [TypeExpr.eachName_named]
  have htext : customersExpr.toText = "(Customer? who, List<T>[])" := by decide +kernel
  exact ⟨by decide +kernel, hundotted, ((bind_keeps _ _ _).2 hundotted).trans htext, by decide +kernel⟩

end Binder

end ContractStubs
