import ContractStubs.Binding.Scope
import ContractStubs.Proofs.Text.Pieces
import ContractStubs.Proofs.TypeExpr.Scan

/-!
# Names and qualifiers

A dotted name is cut at its last dot (`splitQualifier?_eq_some`); what stands behind it is a word, and a word has no
qualifier (`isWord_of_splitQualifier?`, `splitQualifier?_of_isWord`).
-/

namespace ContractStubs

theorem intercalate_piecesAt_dot : ∀ cs : List Char, ['.'].intercalate (piecesAt (· = '.') cs) = cs
  | [] => rfl
  | c :: cs => by
    have hih := intercalate_piecesAt_dot cs
    have hne : piecesAt (· = '.') cs ≠ [] := piecesAt_ne_nil cs
    rw [piecesAt]
    split
    next hc =>
      obtain rfl : c = '.' := by simpa using hc
      rw [List.intercalate_cons_of_ne_nil hne, hih]
      rfl
    next =>
      obtain ⟨piece, pieces, hpieces⟩ := List.exists_cons_of_ne_nil hne
      rw [hpieces] at hih
      rw [hpieces]
      exact (List.intercalate_cons_cons_left ..).trans (congrArg (c :: ·) hih)

/-- A text is its pieces between dots. -/
theorem intercalate_textPieces_dot (text : String) : ".".intercalate (textPieces (· = '.') text) = text := by
  have hmap : (textPieces (· = '.') text).map String.toList = piecesAt (· = '.') text.toList := by
    simp [textPieces, Function.comp_def]
  rw [← String.toList_inj, String.toList_intercalate, hmap]
  exact intercalate_piecesAt_dot text.toList

/-! ## The last dot -/

namespace TypeExpr

theorem IsWord.ne_dot {w : String} (h : IsWord w) : ∀ c ∈ w.toList, decide (c = '.') = false := by
  intro c hc
  refine decide_eq_false ?_
  rintro rfl
  exact absurd (h.isStart_or_isPart _ hc) (by decide +kernel)

theorem textPieces_of_isWord {w : String} (h : IsWord w) : textPieces (· = '.') w = [w] :=
  textPieces_of_none h.ne_dot

/-- The pieces of a dotted name are its words. -/
theorem textPieces_dotted {first : String} {words : List String} (hfirst : IsWord first)
    (hwords : ∀ w ∈ words, IsWord w) : textPieces (· = '.') (dotted first words) = first :: words := by
  suffices h : ∀ (words : List String), (∀ w ∈ words, IsWord w) → ∀ name,
      textPieces (· = '.') (dotted name words) = textPieces (· = '.') name ++ words by
    rw [h words hwords, textPieces_of_isWord hfirst]
    rfl
  intro words
  induction words with
  | nil => intro _ name; simp [dotted]
  | cons w words ih =>
    intro hwords name
    have hw : IsWord w := hwords w (by simp)
    have hstep : textPieces (· = '.') (name ++ "." ++ w) = textPieces (· = '.') name ++ [w] := by
      rw [textPieces_append (d := '.') rfl (by simp), textPieces_of_isWord hw]
    have hih := ih (fun v hv => hwords v (by simp [hv])) (name ++ "." ++ w)
    rw [hstep, List.append_assoc] at hih
    exact hih

end TypeExpr

open TypeExpr

variable {name qualifier simple : String}

/-- A name with a qualifier is the qualifier, a dot and what stands behind it. -/
theorem splitQualifier?_eq_some (h : splitQualifier? name = some (qualifier, simple)) :
    name = qualifier ++ "." ++ simple := by
  rw [splitQualifier?] at h
  split at h
  next last part parts hrev =>
    cases h
    have hpieces : textPieces (· = '.') name = (part :: parts).reverse ++ [simple] := by
      rw [← List.reverse_reverse (textPieces (· = '.') name), hrev, List.reverse_cons]
    have hjoin := String.intercalate_append_of_ne_nil (s := ".") (l := (part :: parts).reverse) (m := [simple])
      (by simp) (by simp)
    rw [← hpieces, intercalate_textPieces_dot, String.intercalate_singleton] at hjoin
    exact hjoin
  next => cases h

theorem splitQualifier?_of_isWord (h : IsWord name) : splitQualifier? name = none := by
  rw [splitQualifier?, textPieces_of_isWord h]
  rfl

/-- What stands behind the last dot of a dotted name is a word. -/
theorem isWord_of_splitQualifier? (hname : IsDotted name) (h : splitQualifier? name = some (qualifier, simple)) :
    IsWord simple := by
  obtain ⟨first, words, hfirst, hwords, rfl⟩ := hname
  rw [splitQualifier?, textPieces_dotted hfirst hwords] at h
  split at h
  next last part parts hrev =>
    cases h
    have hmem : simple ∈ first :: words := by
      rw [← List.mem_reverse, hrev]
      exact List.mem_cons_self
    rcases List.mem_cons.mp hmem with rfl | hmem
    · exact hfirst
    · exact hwords simple hmem
  next => cases h

end ContractStubs
