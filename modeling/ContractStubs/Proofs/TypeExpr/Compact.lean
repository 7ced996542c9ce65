import ContractStubs.Proofs.Text.Pieces
import ContractStubs.Proofs.TypeExpr.Grammar

/-!
# Types in compact texts

No token goes across a blank, and blanks are no tokens: the tokens of a text are those of its words
(`tokens_eq_flatMap`). A text and its compact form have the same words, so they are read as the same type, or both are
kept as they are written (`compact_keeps_type`).
-/

namespace ContractStubs

namespace TypeExpr

/-- The tokens of characters are those of the words among them. -/
theorem scan_eq_flatMap (cs : List Char) : scan [] cs = (blankSeparated cs).flatMap (scan []) := by
  induction cs using blank_induction with
  | solid cs h =>
    by_cases hne : cs = []
    · rw [hne]
      rfl
    · rw [blankSeparated_of_none hne h, List.flatMap_singleton]
  | between cs d ds hd hcs hds =>
    rw [scan_append (breaks_of_isBlank hd), scan_blank hd, hcs, hds, blankSeparated_append hd, List.flatMap_append]

/-- **A text has the tokens of its compact form.** -/
theorem tokens_compact (text : String) : tokens (compact text) = tokens text := by
  rw [tokens, scan_eq_flatMap, blankSeparated_compact, ← scan_eq_flatMap, tokens]

/-- **To make a text compact does not change its type**: from both the same type is read, or none is, and then the
compact text is kept in the place of the text. -/
theorem compact_keeps_type (text : String) :
    ((∃ kept, parse (compact text) = .verbatim kept) ↔ ∃ kept, parse text = .verbatim kept) ∧
      ((∀ kept, parse text ≠ .verbatim kept) → parse (compact text) = parse text) ∧
      ∀ kept, parse text = .verbatim kept → parse (compact text) = .verbatim (compact kept) := by
  cases h : ofTokens? (tokens text) with
  | none =>
    have hkept : parse text = .verbatim (trimBlank text) := by rw [parse, h, Option.getD_none]
    have hcompact : parse (compact text) = .verbatim (compact (trimBlank text)) := by
      rw [parse, tokens_compact, h, Option.getD_none, trimBlank_compact, compact_trimBlank]
    refine ⟨iff_of_true ⟨_, hcompact⟩ ⟨_, hkept⟩, fun hother => absurd hkept (hother _), fun kept hparse => ?_⟩
    obtain rfl := verbatim.inj (hparse.symm.trans hkept)
    exact hcompact
  | some e =>
    have hparse : parse text = e := by rw [parse, h, Option.getD_some]
    have hcompact : parse (compact text) = e := by rw [parse, tokens_compact, h, Option.getD_some]
    rw [hcompact, hparse]
    refine ⟨Iff.rfl, fun _ => rfl, fun kept he => absurd he ?_⟩
    exact ne_verbatim_of_derivesType (ofTokens?_eq_some_iff.mp h)

/-- Line breaks, tabs and a blank of another kind inside a type, and inside a text that is kept as it is written. -/
theorem broken_lines_read :
    let type := "Task<\n\tPair<int ,\u00a0string>  >"
    let pointer := "\tdelegate*<int,\n\tvoid>"
    (∀ kept, parse type ≠ .verbatim kept) ∧ parse (compact type) = parse type ∧
      parse pointer = .verbatim "delegate*<int,\n\tvoid>" ∧
      parse (compact pointer) = .verbatim (compact "delegate*<int,\n\tvoid>") := by
  intro type pointer
  have htype : parse type = .named "Task" [.named "Pair" [.named "int" [] "", .named "string" [] ""] ""] "" := by
    decide +kernel
  have hread : ∀ kept, parse type ≠ .verbatim kept := fun kept hkept => by cases htype.symm.trans hkept
  have hpointer : parse pointer = .verbatim "delegate*<int,\n\tvoid>" := by decide +kernel
  exact ⟨hread, (compact_keeps_type type).2.1 hread, hpointer, (compact_keeps_type pointer).2.2 _ hpointer⟩

end TypeExpr

end ContractStubs
