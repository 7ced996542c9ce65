import ContractStubs.TypeExpr.Token
import Mathlib.Data.List.DropRight

/-!
# Scanning names and marks

* A text falls apart at each character that no name goes on with (`scan_append`), so the tokens of a text are those of
  its parts.
* `IsWord` is a name without a dot and `IsDotted` a series of such names; they come back as their words and the dots
  between them (`tokens_word`, `tokens_dotted`).
* Blanks around a text change none of its tokens (`tokens_trimBlank`), and nothing else goes with them
  (`mem_trimBlanks`).
-/

namespace ContractStubs

/-! ## Classes of characters -/

/-- No range of one table meets one of the other. -/
def CharRanges.Apart (ranges others : CharRanges) : Prop :=
  ∀ r ∈ ranges, ∀ s ∈ others, r.2 < s.1 ∨ s.2 < r.1

instance (ranges others : CharRanges) : Decidable (ranges.Apart others) := by
  unfold CharRanges.Apart
  infer_instance

/-- A character of one table lies in none that is apart from it. -/
theorem CharRanges.Apart.contains_eq_false {ranges others : CharRanges} (h : ranges.Apart others) {c : Char}
    (hc : ranges.contains c = true) : others.contains c = false := by
  obtain ⟨r, hr, hrc⟩ := List.any_eq_true.mp hc
  refine List.any_eq_false.mpr fun s hs hsc => ?_
  simp only [Bool.and_eq_true, decide_eq_true_eq] at hrc hsc
  rcases h r hr s hs with hlt | hlt <;> omega

namespace TypeExpr

variable {c : Char} {w cs ds : List Char}

/-- No name starts or goes on with a blank. -/
theorem isWordPart_of_isBlank (h : isBlank c = true) : isWordPart c = false := by
  have hletter : isLetter c = false := CharRanges.Apart.contains_eq_false (by decide +kernel) h
  have hother : otherAlphabeticRanges.contains c = false := CharRanges.Apart.contains_eq_false (by decide +kernel) h
  have hdigit : isDecimalDigit c = false := CharRanges.Apart.contains_eq_false (by decide +kernel) h
  have hnumeral : numeralRanges.contains c = false := CharRanges.Apart.contains_eq_false (by decide +kernel) h
  have hline : c ≠ '_' := by rintro rfl; exact absurd h (by decide)
  simp [isWordPart, isAlphanumeric, isAlphabetic, isNumeric, hletter, hother, hdigit, hnumeral, hline]

theorem isWordPart_of_isWordStart (h : isWordStart c = true) (hat : c ≠ '@') : isWordPart c = true := by
  simp only [isWordStart, hat, decide_false, Bool.false_or, Bool.or_eq_true, decide_eq_true_eq] at h
  rcases h with h | h <;> simp [isWordPart, isAlphanumeric, h]

theorem isWordStart_of_isBlank (h : isBlank c = true) : isWordStart c = false := by
  refine Bool.eq_false_iff.mpr fun hs => ?_
  have hat : c ≠ '@' := by rintro rfl; exact absurd h (by decide)
  exact Bool.false_ne_true ((isWordPart_of_isBlank h).symm.trans (isWordPart_of_isWordStart hs hat))

/-- A mark: a character of which no name is made, that is no blank and that two of a kind do not make a token. -/
def isSoleMark (c : Char) : Bool := !isWordPart c && !isWordStart c && !isBlank c && c ≠ ':'

theorem ne_colon_of_isWordPart (h : isWordPart c = true) : c ≠ ':' := by
  rintro rfl
  exact absurd h (by decide +kernel)

/-! ## Steps of the scanner -/

theorem scan_cons (h : c = ':' → cs.head? ≠ some ':') : scan w (c :: cs) =
    if !w.isEmpty && isWordPart c then scan (c :: w) cs
    else if isWordStart c then wordToken w ++ scan [c] cs
    else if isBlank c then wordToken w ++ scan [] cs
    else wordToken w ++ .mark c :: scan [] cs := by
  rw [scan]
  rintro rest rfl rfl
  exact h rfl rfl

theorem scan_cons_of_ne_colon (h : c ≠ ':') : scan w (c :: cs) =
    if !w.isEmpty && isWordPart c then scan (c :: w) cs
    else if isWordStart c then wordToken w ++ scan [c] cs
    else if isBlank c then wordToken w ++ scan [] cs
    else wordToken w ++ .mark c :: scan [] cs :=
  scan_cons fun hc => absurd hc h

/-- What is left of a name ends at a character that it does not go on with. -/
theorem scan_cons_of_isWordPart_eq_false (h : isWordPart c = false) (hc : c ≠ ':') :
    scan w (c :: cs) = wordToken w ++ scan [] (c :: cs) := by
  simp only [scan_cons_of_ne_colon hc, h, Bool.and_false, Bool.false_eq_true, if_false, wordToken, List.nil_append]
  split
  · rfl
  · split <;> rfl

theorem scan_mark (h : isSoleMark c = true) : scan [] (c :: cs) = .mark c :: scan [] cs := by
  simp only [isSoleMark, Bool.and_eq_true, Bool.not_eq_true', decide_eq_true_eq] at h
  rw [scan_cons_of_ne_colon h.2]
  simp [h, wordToken]

theorem scan_blank (h : isBlank c = true) : scan [] (c :: cs) = scan [] cs := by
  have hc : c ≠ ':' := by rintro rfl; exact absurd h (by decide)
  rw [scan_cons_of_ne_colon hc]
  simp [isWordPart_of_isBlank h, isWordStart_of_isBlank h, h, wordToken]

/-- The text starts with nothing that belongs to what stands before it. -/
def Breaks (cs : List Char) : Prop := ∀ c ∈ cs.head?, isWordPart c = false ∧ c ≠ ':'

theorem breaks_nil : Breaks [] := by simp [Breaks]

theorem breaks_of_isSoleMark (h : isSoleMark c = true) : Breaks (c :: cs) := by
  simp only [isSoleMark, Bool.and_eq_true, Bool.not_eq_true', decide_eq_true_eq] at h
  simpa [Breaks] using ⟨h.1.1.1, h.2⟩

theorem breaks_of_isBlank (h : isBlank c = true) : Breaks (c :: cs) := by
  have hc : c ≠ ':' := by rintro rfl; exact absurd h (by decide)
  simpa [Breaks] using ⟨isWordPart_of_isBlank h, hc⟩

theorem scan_of_breaks (h : Breaks ds) : scan w ds = wordToken w ++ scan [] ds := by
  cases ds with
  | nil => simp [scan, wordToken]
  | cons c cs =>
    obtain ⟨hpart, hc⟩ := h c (by simp)
    exact scan_cons_of_isWordPart_eq_false hpart hc

theorem Breaks.head?_append_ne_colon (h : Breaks ds) (hcs : cs.head? ≠ some ':') : (cs ++ ds).head? ≠ some ':' := by
  cases cs with
  | nil => exact fun hd => (h ':' hd).2 rfl
  | cons c cs => exact hcs

/-- What follows a colon that stands alone is no colon. -/
theorem head?_ne_colon (h : ∀ rest, c = ':' → cs = ':' :: rest → False) (hc : c = ':') : cs.head? ≠ some ':' := by
  cases cs with
  | nil => simp
  | cons d cs => rintro ⟨⟩; exact h cs hc rfl

/-- **A text falls apart where nothing of a name goes on.** -/
theorem scan_append (h : Breaks ds) : ∀ w cs, scan w (cs ++ ds) = scan w cs ++ scan [] ds := by
  intro w cs
  fun_induction scan w cs with
  | case1 w => simpa using scan_of_breaks h
  | case2 w cs ih => simp [scan, ih]
  | case3 w c cs hc hpart ih =>
    have hne : c ≠ ':' := ne_colon_of_isWordPart (Bool.and_eq_true _ _ ▸ hpart).2
    rw [List.cons_append, scan_cons_of_ne_colon hne, if_pos hpart, ih]
  | case4 w c cs hc hpart hstart ih =>
    rw [List.cons_append, scan_cons fun he => h.head?_append_ne_colon (head?_ne_colon hc he), if_neg hpart,
      if_pos hstart, ih, List.append_assoc]
  | case5 w c cs hc hpart hstart hblank ih =>
    rw [List.cons_append, scan_cons fun he => h.head?_append_ne_colon (head?_ne_colon hc he), if_neg hpart,
      if_neg hstart, if_pos hblank, ih, List.append_assoc]
  | case6 w c cs hc hpart hstart hblank ih =>
    rw [List.cons_append, scan_cons fun he => h.head?_append_ne_colon (head?_ne_colon hc he), if_neg hpart,
      if_neg hstart, if_neg hblank, ih, List.append_assoc, List.cons_append]

/-! ## Names -/

/-- A name without a dot. -/
def IsWord (text : String) : Prop := ∃ c cs, text.toList = c :: cs ∧ isWordStart c = true ∧ cs.all isWordPart = true

/-- Words with dots between them. -/
def dotted (first : String) (rest : List String) : String := rest.foldl (fun name w => name ++ "." ++ w) first

/-- A name, possibly with dots. -/
def IsDotted (text : String) : Prop :=
  ∃ first rest, IsWord first ∧ (∀ w ∈ rest, IsWord w) ∧ text = dotted first rest

/-- The tokens of the words behind dots. -/
def dotTokens (words : List String) : List Token := words.flatMap fun w => [.mark '.', .word w]

theorem scan_of_isWordPart : ∀ {w : List Char}, w ≠ [] → ∀ {cs}, cs.all isWordPart = true →
    scan w cs = wordToken (cs.reverse ++ w)
  | w, _, [], _ => by simp [scan]
  | w, hw, c :: cs, h => by
    rw [List.all_cons, Bool.and_eq_true] at h
    have hgo : (!w.isEmpty && isWordPart c) = true := by simp [hw, h.1]
    rw [scan_cons_of_ne_colon (ne_colon_of_isWordPart h.1), if_pos hgo, scan_of_isWordPart (by simp) h.2]
    simp

/-- **A word is one token.** -/
theorem tokens_word {text : String} (h : IsWord text) : tokens text = [.word text] := by
  obtain ⟨c, cs, htext, hc, hcs⟩ := h
  have hne : c ≠ ':' := by rintro rfl; exact absurd hc (by decide +kernel)
  have hofList : String.ofList (c :: cs) = text := by rw [← htext, String.ofList_toList]
  rw [tokens, htext, scan_cons_of_ne_colon hne]
  simp [hc, wordToken, scan_of_isWordPart, hcs, hofList]

theorem isSoleMark_dot : isSoleMark '.' = true := by decide +kernel

theorem tokens_append {a b : String} (h : Breaks b.toList) : tokens (a ++ b) = tokens a ++ tokens b := by
  rw [tokens, String.toList_append, scan_append h]
  rfl

theorem tokens_mark_append {mark : String} (hmark : mark.toList = [c]) (h : isSoleMark c = true) (b : String) :
    tokens (mark ++ b) = .mark c :: tokens b := by
  rw [tokens, String.toList_append, hmark]
  exact scan_mark h

/-- **A dotted name is its words and the dots between them.** -/
theorem tokens_dotted {first : String} {rest : List String} (hfirst : IsWord first) (hrest : ∀ w ∈ rest, IsWord w) :
    tokens (dotted first rest) = .word first :: dotTokens rest := by
  suffices h : ∀ (rest : List String), (∀ w ∈ rest, IsWord w) → ∀ name,
      tokens (dotted name rest) = tokens name ++ dotTokens rest by
    rw [h rest hrest, tokens_word hfirst]
    rfl
  intro rest
  induction rest with
  | nil => intro _ name; simp [dotted, dotTokens]
  | cons w rest ih =>
    intro hrest name
    have hw : IsWord w := hrest w (by simp)
    have hbreaks : Breaks ("." ++ w).toList := by
      rw [String.toList_append]
      exact breaks_of_isSoleMark isSoleMark_dot
    have hstep : tokens (name ++ "." ++ w) = tokens name ++ [.mark '.', .word w] := by
      rw [String.append_assoc, tokens_append hbreaks, tokens_mark_append rfl isSoleMark_dot, tokens_word hw]
    have hih := ih (fun v hv => hrest v (by simp [hv])) (name ++ "." ++ w)
    rw [hstep] at hih
    simpa [dotted, dotTokens] using hih

/-- All characters of a word may stand in one. -/
theorem IsWord.isStart_or_isPart {text : String} (h : IsWord text) :
    ∀ c ∈ text.toList, isWordStart c = true ∨ isWordPart c = true := by
  obtain ⟨first, cs, htext, hfirst, hcs⟩ := h
  intro c hc
  rw [htext] at hc
  rcases List.mem_cons.mp hc with rfl | hc
  · exact .inl hfirst
  · exact .inr (List.all_eq_true.mp hcs c hc)

theorem isWord_ofList_singleton (h : isWordStart c = true) : IsWord (String.ofList [c]) :=
  ⟨c, [], by simp, h, rfl⟩

theorem IsWord.ofList_append {cs : List Char} (h : IsWord (String.ofList cs)) (hc : isWordPart c = true) :
    IsWord (String.ofList (cs ++ [c])) := by
  obtain ⟨d, ds, hcs, hd, hds⟩ := h
  rw [String.toList_ofList] at hcs
  exact ⟨d, ds ++ [c], by simp [hcs], hd, by simp [hds, hc]⟩

theorem isWord_of_mem_wordToken {word : String} (hw : w ≠ [] → IsWord (String.ofList w.reverse))
    (h : .word word ∈ wordToken w) : IsWord word := by
  cases w with
  | nil => cases h
  | cons c cs =>
    obtain rfl : word = String.ofList (c :: cs).reverse := by simpa [wordToken] using h
    exact hw (by simp)

/-- The words among the tokens of a text are names without a dot. -/
theorem isWord_of_mem_tokens {text word : String} (h : .word word ∈ tokens text) : IsWord word := by
  suffices hscan : ∀ w cs, (w ≠ [] → IsWord (String.ofList w.reverse)) → .word word ∈ scan w cs → IsWord word from
    hscan [] text.toList (fun hw => absurd rfl hw) h
  intro w cs
  fun_induction scan w cs with
  | case1 w => exact isWord_of_mem_wordToken
  | case2 w cs ih =>
    intro hw hmem
    rcases List.mem_append.mp hmem with hmem | hmem
    · exact isWord_of_mem_wordToken hw hmem
    · exact ih (by simp) (by simpa using hmem)
  | case3 w c cs hc hgo ih =>
    intro hw hmem
    obtain ⟨hne, hpart⟩ := Bool.and_eq_true _ _ ▸ hgo
    refine ih (fun _ => ?_) hmem
    rw [List.reverse_cons]
    exact (hw (by simpa using hne)).ofList_append hpart
  | case4 w c cs hc hgo hstart ih =>
    intro hw hmem
    rcases List.mem_append.mp hmem with hmem | hmem
    · exact isWord_of_mem_wordToken hw hmem
    · exact ih (fun _ => isWord_ofList_singleton hstart) hmem
  | case5 w c cs hc hgo hstart hblank ih =>
    intro hw hmem
    rcases List.mem_append.mp hmem with hmem | hmem
    · exact isWord_of_mem_wordToken hw hmem
    · exact ih (by simp) hmem
  | case6 w c cs hc hgo hstart hblank ih =>
    intro hw hmem
    rcases List.mem_append.mp hmem with hmem | hmem
    · exact isWord_of_mem_wordToken hw hmem
    · exact ih (by simp) (by simpa using hmem)

/-! ## Blanks around a text -/

theorem scan_dropWhile_isBlank : ∀ cs : List Char, scan [] (cs.dropWhile isBlank) = scan [] cs
  | [] => rfl
  | c :: cs => by
    rw [List.dropWhile_cons]
    split
    next hblank => rw [scan_dropWhile_isBlank cs, scan_blank hblank]
    next => rfl

theorem scan_append_of_isBlank : ∀ {ds : List Char}, ds.all isBlank = true → ∀ w cs, scan w (cs ++ ds) = scan w cs
  | [], _, w, cs => by rw [List.append_nil]
  | d :: ds, h, w, cs => by
    rw [List.all_cons, Bool.and_eq_true] at h
    rw [scan_append (breaks_of_isBlank h.1), scan_blank h.1]
    have hrest := scan_append_of_isBlank h.2 [] []
    rw [List.nil_append] at hrest
    rw [hrest, scan, wordToken, List.append_nil]

/-- Characters are what is left of them without the blanks at their end, and those blanks. -/
theorem dropBlanksRight_append (cs : List Char) :
    ∃ blanks, cs = dropBlanksRight cs ++ blanks ∧ blanks.all isBlank = true := by
  refine ⟨(cs.reverse.takeWhile isBlank).reverse, ?_, by simp⟩
  rw [dropBlanksRight, ← List.reverse_append, List.takeWhile_append_dropWhile, List.reverse_reverse]

/-- **Blanks around a text are no tokens.** -/
theorem tokens_trimBlank (text : String) : tokens (trimBlank text) = tokens text := by
  obtain ⟨blanks, hcs, hblanks⟩ := dropBlanksRight_append (text.toList.dropWhile isBlank)
  calc tokens (trimBlank text)
    _ = scan [] (dropBlanksRight (text.toList.dropWhile isBlank)) := by
      rw [tokens, trimBlank, String.toList_ofList, trimBlanks]
    _ = scan [] (dropBlanksRight (text.toList.dropWhile isBlank) ++ blanks) := (scan_append_of_isBlank hblanks _ _).symm
    _ = scan [] (text.toList.dropWhile isBlank) := by rw [← hcs]
    _ = tokens text := scan_dropWhile_isBlank text.toList

/-- What ends with anything but a blank still does without the blanks around it. -/
theorem getLast?_trimBlanks {c : Char} (hc : isBlank c = false) (cs : List Char) :
    (trimBlanks (cs ++ [c])).getLast? = some c := by
  obtain ⟨ds, hds⟩ : ∃ ds, (cs ++ [c]).dropWhile isBlank = ds ++ [c] := by
    rw [List.dropWhile_append]
    split
    next => exact ⟨[], by simp [hc]⟩
    next => exact ⟨_, rfl⟩
  rw [trimBlanks, hds, dropBlanksRight, List.reverse_append, List.reverse_singleton, List.singleton_append,
    List.dropWhile_cons_of_neg (by simp [hc])]
  simp

theorem mem_dropWhile_isBlank {c : Char} (hc : isBlank c = false) {cs : List Char} (h : c ∈ cs) :
    c ∈ cs.dropWhile isBlank := by
  rw [← List.takeWhile_append_dropWhile (p := isBlank) (l := cs)] at h
  refine (List.mem_append.mp h).resolve_left fun htake => ?_
  have hblank := List.mem_takeWhile_imp htake
  exact Bool.false_ne_true (hc.symm.trans hblank)

/-- Without the blanks around it a text still has all that is no blank. -/
theorem mem_trimBlanks {c : Char} (hc : isBlank c = false) {cs : List Char} (h : c ∈ cs) : c ∈ trimBlanks cs := by
  rw [trimBlanks, dropBlanksRight, List.mem_reverse]
  exact mem_dropWhile_isBlank hc (List.mem_reverse.mpr (mem_dropWhile_isBlank hc h))

/-- A text without blanks has none around it. -/
theorem trimBlank_of_none {text : String} (h : ∀ c ∈ text.toList, isBlank c = false) : trimBlank text = text := by
  have hdrop : ∀ {cs : List Char}, (∀ c ∈ cs, isBlank c = false) → cs.dropWhile isBlank = cs := by
    intro cs hcs
    rw [List.dropWhile_eq_self_iff]
    exact fun hlen => by simp [hcs _ (List.getElem_mem hlen)]
  rw [trimBlank, trimBlanks, hdrop h, dropBlanksRight, hdrop fun c hc => h c (List.mem_reverse.mp hc),
    List.reverse_reverse, String.ofList_toList]

theorem trimBlank_trimBlank (text : String) : trimBlank (trimBlank text) = trimBlank text := by
  simp only [trimBlank, trimBlanks, String.toList_ofList]
  generalize text.toList = cs
  have hleft : (dropBlanksRight (cs.dropWhile isBlank)).dropWhile isBlank = dropBlanksRight (cs.dropWhile isBlank) := by
    rw [List.dropWhile_eq_self_iff]
    intro hlen
    have hhead : dropBlanksRight (cs.dropWhile isBlank) <+: cs.dropWhile isBlank :=
      List.rdropWhile_prefix isBlank _
    rw [hhead.getElem hlen]
    exact List.dropWhile_eq_self_iff.mp (List.dropWhile_idempotent isBlank cs) _
  have hright : dropBlanksRight (dropBlanksRight (cs.dropWhile isBlank)) = dropBlanksRight (cs.dropWhile isBlank) :=
    List.rdropWhile_idempotent isBlank _
  rw [hleft, hright]

end TypeExpr

end ContractStubs
