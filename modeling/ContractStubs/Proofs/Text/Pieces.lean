import ContractStubs.Proofs.Text.Ends

/-!
# Pieces of a text

A text is cut at each separator (`piecesAt_append`), and nowhere else: what has none is one piece (`piecesAt_of_none`),
and no piece has one in it (`eq_false_of_mem_piecesAt`). The last piece is what follows the last separator
(`lastPiece_append`), up to the end of the text (`mem_lastPiece_of_getLast?`).

The words of a text are what stands between its blanks: behind each blank they start anew (`blankSeparated_append`), and
no word has a blank in it (`of_mem_blankSeparated`). So words that stand one space apart are found again, and a text has
the words of its compact form (`blankSeparated_compact`). The blanks around a text make no difference to that form
(`compact_trimBlank`), which has none around it (`trimBlank_compact`).
-/

namespace ContractStubs

variable {f : Char → Bool}

theorem piecesAt_ne_nil : ∀ cs : List Char, piecesAt f cs ≠ []
  | [] => by simp [piecesAt]
  | c :: cs => by
    rw [piecesAt]
    split
    · simp
    · split <;> simp

/-- Characters without a separator are one piece. -/
theorem piecesAt_of_none : ∀ {cs : List Char}, (∀ c ∈ cs, f c = false) → piecesAt f cs = [cs]
  | [], _ => rfl
  | c :: cs, h => by
    rw [piecesAt, h c (by simp), piecesAt_of_none fun d hd => h d (by simp [hd])]
    rfl

theorem piecesAt_append {d : Char} (hd : f d = true) (ds : List Char) : ∀ cs : List Char,
    piecesAt f (cs ++ d :: ds) = piecesAt f cs ++ piecesAt f ds
  | [] => by simp [piecesAt, hd]
  | c :: cs => by
    have hih := piecesAt_append hd ds cs
    rw [List.cons_append, piecesAt, piecesAt, hih]
    by_cases hc : f c = true
    · simp [hc]
    · obtain ⟨piece, pieces, hpieces⟩ := List.exists_cons_of_ne_nil (piecesAt_ne_nil (f := f) cs)
      simp [hc, hpieces]

/-- No piece has a separator in it. -/
theorem eq_false_of_mem_piecesAt : ∀ {cs piece : List Char}, piece ∈ piecesAt f cs → ∀ c ∈ piece, f c = false
  | [], piece, h => by
    obtain rfl : piece = [] := by simpa [piecesAt] using h
    simp
  | c :: cs, piece, h => by
    rw [piecesAt] at h
    split at h
    next =>
      rcases List.mem_cons.mp h with rfl | h
      · simp
      · exact eq_false_of_mem_piecesAt h
    next hc =>
      have hplain : f c = false := Bool.eq_false_iff.mpr hc
      obtain ⟨first, pieces, hpieces⟩ := List.exists_cons_of_ne_nil (piecesAt_ne_nil (f := f) cs)
      rw [hpieces] at h
      rcases List.mem_cons.mp h with rfl | h
      · exact List.forall_mem_cons.mpr ⟨hplain, eq_false_of_mem_piecesAt (hpieces ▸ List.mem_cons_self)⟩
      · exact eq_false_of_mem_piecesAt (hpieces ▸ List.mem_cons_of_mem _ h)

/-- Characters without a separator are one piece of a text. -/
theorem textPieces_of_none {text : String} (h : ∀ c ∈ text.toList, f c = false) : textPieces f text = [text] := by
  rw [textPieces, piecesAt_of_none h]
  simp

/-- A text is cut at a separator. -/
theorem textPieces_append {separator : String} {d : Char} (hs : separator.toList = [d]) (hd : f d = true)
    (text other : String) : textPieces f (text ++ separator ++ other) = textPieces f text ++ textPieces f other := by
  have hchars : (text ++ separator ++ other).toList = text.toList ++ d :: other.toList := by simp [hs]
  rw [textPieces, hchars, piecesAt_append hd, List.map_append]
  rfl

/-- No piece of a text has a separator in it. -/
theorem eq_false_of_mem_textPieces {text piece : String} (h : piece ∈ textPieces f text) :
    ∀ c ∈ piece.toList, f c = false := by
  obtain ⟨cs, hcs, rfl⟩ := List.mem_map.mp h
  rw [String.toList_ofList]
  exact eq_false_of_mem_piecesAt hcs

/-! ## The last piece -/

/-- A text without a separator is its own last piece. -/
theorem lastPiece_of_none {text : String} (h : ∀ c ∈ text.toList, f c = false) : lastPiece f text = text := by
  rw [lastPiece, piecesAt_of_none h]
  simp

/-- The last piece stands behind every separator. -/
theorem lastPiece_append {separator : String} {d : Char} (hs : separator.toList = [d]) (hd : f d = true)
    (text other : String) : lastPiece f (text ++ separator ++ other) = lastPiece f other := by
  have hchars : (text ++ separator ++ other).toList = text.toList ++ d :: other.toList := by simp [hs]
  obtain ⟨piece, pieces, hpieces⟩ := List.exists_cons_of_ne_nil (piecesAt_ne_nil (f := f) other.toList)
  rw [lastPiece, lastPiece, hchars, piecesAt_append hd, hpieces]
  simp [List.getLastD_eq_getLast?, List.getLast?_cons]

theorem mem_getLastD_piecesAt {c : Char} (hc : f c = false) : ∀ cs : List Char,
    c ∈ (piecesAt f (cs ++ [c])).getLastD []
  | [] => by simp [piecesAt, hc]
  | d :: cs => by
    have ih := mem_getLastD_piecesAt hc cs
    obtain ⟨piece, pieces, hpieces⟩ := List.exists_cons_of_ne_nil (piecesAt_ne_nil (f := f) (cs ++ [c]))
    rw [hpieces, List.getLastD_cons] at ih
    rw [List.cons_append, piecesAt, hpieces]
    split
    next => rwa [List.getLastD_cons, List.getLastD_cons]
    next =>
      dsimp only
      rw [List.getLastD_cons]
      cases pieces with
      | nil => exact List.mem_cons_of_mem _ ih
      | cons second pieces => exact ih

/-- The last piece has the last character of the text, unless that is a separator. -/
theorem mem_lastPiece_of_getLast? {text : String} {c : Char} (h : text.toList.getLast? = some c) (hc : f c = false) :
    c ∈ (lastPiece f text).toList := by
  obtain ⟨cs, hcs⟩ := List.getLast?_eq_some_iff.mp h
  rw [lastPiece, String.toList_ofList, hcs]
  exact mem_getLastD_piecesAt hc cs

/-! ## Words -/

section Words

variable {c d : Char} {cs ds : List Char}

/-- What holds without a blank, and for two texts with a blank between them if it does for each, holds for all texts. -/
theorem blank_induction {P : List Char → Prop} (solid : ∀ cs, (∀ c ∈ cs, isBlank c = false) → P cs)
    (between : ∀ cs d ds, isBlank d = true → P cs → P ds → P (cs ++ d :: ds)) (cs : List Char) : P cs := by
  by_cases h : ∃ d ∈ cs, isBlank d = true
  · obtain ⟨d, hmem, hd⟩ := h
    obtain ⟨front, rest, hcs⟩ := List.append_of_mem hmem
    have hlength : cs.length = front.length + (rest.length + 1) := by rw [hcs, List.length_append, List.length_cons]
    rw [hcs]
    exact between front d rest hd (blank_induction solid between front) (blank_induction solid between rest)
  · refine solid cs fun c hc => Bool.eq_false_iff.mpr fun hblank => h ⟨c, hc, hblank⟩
termination_by cs.length

theorem blankSeparated_cons_of_isBlank (hc : isBlank c = true) (cs : List Char) :
    blankSeparated (c :: cs) = blankSeparated cs := by
  rw [blankSeparated.eq_def]
  exact if_pos hc

/-- A character that is no blank starts the first word. -/
theorem exists_blankSeparated_cons : ∀ {c : Char}, isBlank c = false → ∀ cs : List Char,
    ∃ word words, blankSeparated (c :: cs) = (c :: word) :: words
  | c, hc, [] => ⟨[], [], by simp [blankSeparated, hc]⟩
  | c, hc, d :: cs => by
    by_cases hd : isBlank d = true
    · exact ⟨[], blankSeparated (d :: cs), by rw [blankSeparated]; simp [hc, hd]⟩
    · obtain ⟨word, words, hwords⟩ := exists_blankSeparated_cons (Bool.eq_false_iff.mpr hd) cs
      exact ⟨d :: word, words, by rw [blankSeparated]; simp [hc, hd, hwords]⟩

/-- Characters without a blank are one word. -/
theorem blankSeparated_of_none : ∀ {cs : List Char}, cs ≠ [] → (∀ c ∈ cs, isBlank c = false) → blankSeparated cs = [cs]
  | [c], _, h => by simp [blankSeparated, h c List.mem_cons_self]
  | c :: d :: cs, _, h => by
    obtain ⟨hc, hrest⟩ := List.forall_mem_cons.mp h
    have hih := blankSeparated_of_none (List.cons_ne_nil d cs) hrest
    rw [blankSeparated]
    simp [hc, hrest d List.mem_cons_self, hih]

/-- **Behind a blank the words start anew.** -/
theorem blankSeparated_append (hd : isBlank d = true) (ds : List Char) : ∀ cs : List Char,
    blankSeparated (cs ++ d :: ds) = blankSeparated cs ++ blankSeparated ds
  | [] => blankSeparated_cons_of_isBlank hd ds
  | [c] => by
    by_cases hc : isBlank c = true
    · rw [List.cons_append, blankSeparated_cons_of_isBlank hc, blankSeparated_cons_of_isBlank hc]
      exact blankSeparated_cons_of_isBlank hd ds
    · rw [List.cons_append, List.nil_append, blankSeparated]
      simp [hc, hd, blankSeparated]
  | c :: e :: cs => by
    have hih := blankSeparated_append hd ds (e :: cs)
    by_cases hc : isBlank c = true
    · rw [List.cons_append, blankSeparated_cons_of_isBlank hc, blankSeparated_cons_of_isBlank hc, hih]
    · rw [List.cons_append] at hih
      rw [List.cons_append, List.cons_append, blankSeparated, blankSeparated]
      by_cases he : isBlank e = true
      · simp [hc, he, hih]
      · obtain ⟨word, words, hwords⟩ := exists_blankSeparated_cons (Bool.eq_false_iff.mpr he) cs
        simp [hc, he, hih, hwords]

/-- A word has characters, and none of them is a blank. -/
theorem of_mem_blankSeparated (cs : List Char) :
    ∀ word ∈ blankSeparated cs, word ≠ [] ∧ ∀ c ∈ word, isBlank c = false := by
  induction cs using blank_induction with
  | solid cs h =>
    by_cases hne : cs = []
    · simp [hne, blankSeparated]
    · rw [blankSeparated_of_none hne h]
      exact List.forall_mem_singleton.mpr ⟨hne, h⟩
  | between cs d ds hd hcs hds =>
    rw [blankSeparated_append hd]
    exact List.forall_mem_append.mpr ⟨hcs, hds⟩

theorem isBlank_space : isBlank ' ' = true := by decide

/-- Words that stand one space apart are found again. -/
theorem blankSeparated_intercalate : ∀ {words : List (List Char)},
    (∀ word ∈ words, word ≠ [] ∧ ∀ c ∈ word, isBlank c = false) → blankSeparated ([' '].intercalate words) = words
  | [], _ => rfl
  | [word], h => by
    obtain ⟨hne, hword⟩ := h word List.mem_cons_self
    rw [List.intercalate_singleton, blankSeparated_of_none hne hword]
  | word :: next :: words, h => by
    obtain ⟨⟨hne, hword⟩, hrest⟩ := List.forall_mem_cons.mp h
    rw [List.intercalate_cons_of_ne_nil (List.cons_ne_nil _ _), List.append_assoc, List.singleton_append,
      blankSeparated_append isBlank_space, blankSeparated_of_none hne hword, blankSeparated_intercalate hrest,
      List.singleton_append]

/-- Words that stand one space apart start and end with others than blanks. -/
theorem isSolid_intercalate : ∀ {words : List (List Char)}, words ≠ [] →
    (∀ word ∈ words, word ≠ [] ∧ ∀ c ∈ word, isBlank c = false) → IsSolid ([' '].intercalate words)
  | [word], _, h => by
    obtain ⟨hne, hword⟩ := h word List.mem_cons_self
    rw [List.intercalate_singleton]
    exact isSolid_of_none hne hword
  | word :: next :: words, _, h => by
    obtain ⟨⟨hne, hword⟩, hrest⟩ := List.forall_mem_cons.mp h
    rw [List.intercalate_cons_of_ne_nil (List.cons_ne_nil _ _), List.append_assoc]
    exact (isSolid_of_none hne hword).append (isSolid_intercalate (List.cons_ne_nil _ _) hrest) [' ']

/-! ## Compact texts -/

theorem toList_compact (text : String) : (compact text).toList = [' '].intercalate (blankSeparated text.toList) := by
  rw [compact, String.toList_intercalate, blankWords, List.map_map]
  simp

/-- **The words of a text are those of its compact form.** -/
theorem blankSeparated_compact (text : String) : blankSeparated (compact text).toList = blankSeparated text.toList := by
  rw [toList_compact, blankSeparated_intercalate (of_mem_blankSeparated text.toList)]

theorem compact_eq_of_blankSeparated {other : String} (h : blankSeparated text.toList = blankSeparated other.toList) :
    compact text = compact other := by
  rw [← String.toList_inj, toList_compact, toList_compact, h]

theorem blankSeparated_dropWhile : ∀ cs : List Char, blankSeparated (cs.dropWhile isBlank) = blankSeparated cs
  | [] => rfl
  | c :: cs => by
    rw [List.dropWhile_cons]
    split
    next hc => rw [blankSeparated_dropWhile cs, blankSeparated_cons_of_isBlank hc]
    next => rfl

theorem blankSeparated_dropBlanksRight (cs : List Char) : blankSeparated (dropBlanksRight cs) = blankSeparated cs := by
  change blankSeparated (cs.rdropWhile isBlank) = _
  induction cs using List.reverseRecOn with
  | nil => rfl
  | append_singleton cs c ih =>
    rw [List.rdropWhile_concat]
    split
    next hc => rw [ih, blankSeparated_append hc, blankSeparated.eq_1, List.append_nil]
    next => rfl

/-- The blanks around a text separate no words. -/
theorem compact_trimBlank (text : String) : compact (trimBlank text) = compact text := by
  refine compact_eq_of_blankSeparated ?_
  rw [trimBlank, String.toList_ofList, trimBlanks, blankSeparated_dropBlanksRight, blankSeparated_dropWhile]

/-- A compact text has no blanks around it. -/
theorem trimBlank_compact (text : String) : trimBlank (compact text) = compact text := by
  rw [trimBlank, toList_compact, ← String.toList_inj, String.toList_ofList, toList_compact]
  by_cases hne : blankSeparated text.toList = []
  · rw [hne]
    rfl
  · have hsolid := isSolid_intercalate hne (of_mem_blankSeparated text.toList)
    simpa using hsolid.trimBlanks (List.forall_mem_nil _) (List.forall_mem_nil _)

end Words

end ContractStubs
