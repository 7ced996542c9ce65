import ContractStubs.Proofs.Binding.Rereading
import ContractStubs.Proofs.Lists
import ContractStubs.Proofs.TypeRef.Places

/-!
# Words in references

A word stands in a reference where it is part of the name of a node, or of the text of one that was kept as written
(`TypeRef.Says`). Apart from the names of tuple elements, the text of a reference that was looked up has no other words
(`Binder.mem_tokens_toText_iff`).
-/

namespace ContractStubs

open TypeExpr

namespace TypeExpr

variable {word : String}

/-- The name as it is written; a tuple has none, and a verbatim text is its own name. -/
def writtenName : TypeExpr → String
  | .named name _ _ => name
  | .tuple .. => ""
  | .verbatim text => text

theorem word_not_mem_tokens_empty : .word word ∉ tokens "" := by simp [tokens, scan, wordToken]

theorem mem_suffixTokens {suffix : String} : .word word ∉ suffixTokens suffix := by simp [suffixTokens]

theorem mem_argTokens : ∀ args : List TypeExpr,
    .word word ∈ argTokens args ↔ ∃ a ∈ args, .word word ∈ exprTokens a
  | [] => by simp [argTokens]
  | [arg] => by simp [argTokens]
  | arg :: next :: args => by
    rw [argTokens, List.mem_append, List.mem_cons, mem_argTokens (next :: args), List.exists_mem_cons_iff]
    simp

theorem mem_elementTokens : ∀ elements : List (TypeExpr × Option String),
    .word word ∈ elementTokens elements ↔ ∃ e ∈ elements, .word word ∈ exprTokens e.1 ∨ e.2 = some word
  | [] => by simp [elementTokens]
  | [(type, name?)] => by simp [elementTokens]
  | (type, name?) :: next :: elements => by
    rw [elementTokens, List.mem_append, List.mem_append, List.mem_cons, mem_elementTokens (next :: elements),
      List.exists_mem_cons_iff]
    simp

/-- The words of a name with type arguments are those of the name and those of the arguments. -/
theorem mem_exprTokens_named {name suffix : String} {args : List TypeExpr} :
    .word word ∈ exprTokens (.named name args suffix) ↔
      .word word ∈ tokens name ∨ ∃ a ∈ args, .word word ∈ exprTokens a := by
  cases args with
  | nil => simp [exprTokens, mem_suffixTokens]
  | cons arg args =>
    rw [exprTokens, List.mem_append, List.mem_cons, List.mem_append, mem_argTokens]
    simp [mem_suffixTokens]

/-- The words of a tuple are those of the types of its elements and the names of these. -/
theorem mem_exprTokens_tuple {elements : List (TypeExpr × Option String)} {suffix : String} :
    .word word ∈ exprTokens (.tuple elements suffix) ↔
      ∃ e ∈ elements, .word word ∈ exprTokens e.1 ∨ e.2 = some word := by
  rw [exprTokens, List.mem_cons, List.mem_append, mem_elementTokens]
  simp [mem_suffixTokens]

end TypeExpr

namespace TypeRef

variable {r : TypeRef} {word : String}

/-- The word is part of the name of a node of the reference, or of the text of one that was kept as written. -/
def Says (r : TypeRef) (word : String) : Prop := ∃ place u, r.at? place = some u ∧ .word word ∈ tokens u.name

/-- An element of a tuple in the reference has this name. -/
def NamesElement (r : TypeRef) (word : String) : Prop := ∃ place u, r.at? place = some u ∧ some word ∈ u.elementNames

/-- A word stands in a reference itself or in an argument. -/
theorem says_iff : r.Says word ↔ .word word ∈ tokens r.name ∨ ∃ a ∈ r.args, a.Says word := exists_at?_iff

theorem namesElement_iff : r.NamesElement word ↔ some word ∈ r.elementNames ∨ ∃ a ∈ r.args, a.NamesElement word :=
  exists_at?_iff

theorem says_bare {kind : TypeRefKind} {name : String} : (bare kind name).Says word ↔ .word word ∈ tokens name := by
  rw [says_iff]
  simp [bare]

/-- Marks have no words. -/
theorem says_withSuffix {suffix : String} : (r.withSuffix suffix).Says word ↔ r.Says word := by
  rw [says_iff, says_iff]
  exact Iff.rfl

end TypeRef

namespace Binder

variable {b : Binder} {scope : Scope} {word : String}

/-- Looking up adds no words to a name. -/
theorem mem_tokens_of_name_bind {t : TypeExpr} (h : .word word ∈ tokens (b.bind scope t).name) :
    .word word ∈ tokens t.writtenName := by
  cases t with
  | verbatim text => exact h
  | tuple elements suffix => exact h
  | named name args suffix =>
    change TypeExpr.Token.word word ∈ tokens (b.bindName scope name (b.bindAll scope args)).name at h
    rw [TypeExpr.writtenName]
    rcases name_bindName with hname | ⟨qualifier, hname⟩
    · rwa [hname] at h
    · rw [hname, String.append_assoc, tokens_append_mark (c := '.') rfl isSoleMark_dot]
      exact List.mem_append_right _ (List.mem_cons_of_mem _ h)

theorem mem_exprTokens_expr : ∀ r : TypeRef, r.Everywhere b.Gives →
    (.word word ∈ exprTokens r.expr ↔ r.Says word ∨ r.NamesElement word) :=
  TypeRef.induction fun r ih hr => by
    obtain ⟨hnode, hargs⟩ := TypeRef.everywhere_iff.mp hr
    obtain ⟨name, ns, args, suffix, names, kind⟩ := r
    have hinside : (∃ e ∈ args.map TypeRef.expr, .word word ∈ exprTokens e) ↔
        (∃ a ∈ args, a.Says word) ∨ ∃ a ∈ args, a.NamesElement word := by
      simp only [List.mem_map, exists_exists_and_eq_and, ← exists_or, ← and_or_left]
      exact exists_congr fun a => and_congr_right fun ha => ih a ha (hargs a ha)
    rw [TypeRef.says_iff, TypeRef.namesElement_iff]
    dsimp only
    by_cases hk : kind = .tuple
    · subst hk
      obtain ⟨rfl, -, -, hlength, -⟩ := hnode.ofTuple rfl
      change names.length = args.length at hlength
      have hzip : (∃ e ∈ (args.map TypeRef.expr).zip names, .word word ∈ exprTokens e.1 ∨ e.2 = some word) ↔ _ :=
        exists_mem_zip_iff (P := fun e => .word word ∈ exprTokens e) (Q := (· = some word)) (by simpa using hlength)
      rw [TypeRef.expr, TypeRef.exprs_eq_map, mem_exprTokens_tuple, hzip, hinside, exists_eq_right,
        or_iff_right word_not_mem_tokens_empty, or_assoc, or_comm (b := some word ∈ names)]
    · obtain rfl : names = [] := (hnode.name hk).2
      rw [expr_of_named hk hnode.notVerbatim, mem_exprTokens_named, hinside, or_assoc]
      simp

/-- **The words in the text of a reference that was looked up are those of its names, and the names of tuple
elements.** -/
theorem mem_tokens_toText_iff {r : TypeRef} (hr : r.Everywhere b.Gives) :
    .word word ∈ tokens r.toText ↔ r.Says word ∨ r.NamesElement word := by
  rw [← toText_expr r hr, tokens_toText _ (isShaped_expr r hr)]
  exact mem_exprTokens_expr r hr

end Binder

end ContractStubs
