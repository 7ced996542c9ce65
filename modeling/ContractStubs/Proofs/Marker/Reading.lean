import ContractStubs.Declaration.Basic
import ContractStubs.Marker.Basic
import ContractStubs.Proofs.Text.Joined
import ContractStubs.Proofs.Text.Pieces
import ContractStubs.Proofs.TypeExpr.Grammar

/-!
# Reading uses of a marker

A use of a marker is a name that ends with one of the marker's forms and some text in angle brackets behind it. It is
read as an attribute of that name exactly if the text between the brackets is a list of types (`Marker.isMatch_use_iff`);
then these are the type arguments (`Attribute.ofText_use`). Otherwise the whole text is taken for the name, which is no
form of the marker's as it ends with a bracket.
-/

namespace ContractStubs

namespace TypeExpr

variable {ns ts : List Token} {name : String} {e : TypeExpr}

/-! ## Names in front of angle brackets -/

/-- The only marks in a name are dots. -/
theorem mark_of_derivesName {c : Char} (h : DerivesName ns name) (hc : .mark c ∈ ns) : c = '.' := by
  induction h with
  | word w => simp at hc
  | dot w _ ih =>
    rcases List.mem_append.mp hc with hc | hc
    · exact ih hc
    · simpa using hc
  | colons w _ ih =>
    rcases List.mem_append.mp hc with hc | hc
    · exact ih hc
    · simp at hc

/-- A name is told by its tokens. -/
theorem derivesName_unique {other : String} (h : DerivesName ns name) (h' : DerivesName ns other) : name = other := by
  obtain ⟨w, more, rfl, hparse⟩ := parseName_of_derives h
  obtain ⟨w', more', hcons, hparse'⟩ := parseName_of_derives h'
  obtain ⟨hw, rfl⟩ := List.cons.inj hcons
  obtain rfl := Token.word.inj hw
  have hends : EndsName [] := by simp [EndsName]
  have hsame := (hparse []).symm.trans (hparse' [])
  rw [parseName_of_endsName hends, parseName_of_endsName hends] at hsame
  exact (Prod.mk.inj (Option.some.inj hsame)).1

/-- No suffix has an angle bracket in it. -/
theorem ne_angle_of_derivesMarks {marks : List Char} {c : Char} (h : DerivesMarks ts marks) (hc : .mark c ∈ ts) :
    c ≠ '<' ∧ c ≠ '>' := by
  obtain ⟨rfl, hmarks⟩ := derivesMarks_iff.mp h
  have hmem := mem_suffixChars_of_isMarks false marks hmarks c (by simpa using hc)
  constructor
  · rintro rfl
    exact absurd hmem (by decide)
  · rintro rfl
    exact absurd hmem (by decide)

/-- Behind a list of arguments and its bracket nothing stands if the last token is a closing bracket itself. -/
theorem eq_of_closed {as ss : List Token} {marks : List Char} (hmarks : DerivesMarks ss marks)
    (h : as ++ .mark '>' :: ss = ts ++ [.mark '>']) : as = ts ∧ ss = [] := by
  rcases List.eq_nil_or_concat ss with rfl | ⟨init, last, rfl⟩
  · exact ⟨List.append_cancel_right h, rfl⟩
  · have hlast : as ++ .mark '>' :: init ++ [last] = ts ++ [.mark '>'] := by simpa using h
    obtain ⟨-, hclose⟩ := List.append_inj' hlast rfl
    obtain rfl : last = .mark '>' := by simpa using hclose
    exact absurd rfl (ne_angle_of_derivesMarks hmarks (c := '>') (by simp)).2

/-- **A name with angle brackets behind it is a type exactly if a list of types stands between them.** -/
theorem derivesType_brackets_iff (hname : DerivesName ns name) :
    DerivesType (ns ++ .mark '<' :: (ts ++ [.mark '>'])) e ↔ ∃ args, DerivesArgs ts args ∧ e = .named name args "" := by
  constructor
  · intro h
    generalize htokens : ns ++ .mark '<' :: (ts ++ [.mark '>']) = tokens at h
    cases h with
    | @plain ns' ss _ _ hname' hmarks =>
      have hopen : Token.mark '<' ∈ ns' ++ ss := htokens ▸ by simp
      rcases List.mem_append.mp hopen with hopen | hopen
      · exact absurd (mark_of_derivesName hname' hopen) (by decide)
      · exact absurd rfl (ne_angle_of_derivesMarks hmarks hopen).1
    | @generic ns' as ss _ args _ hname' hargs hmarks =>
      have hfirst : ∀ {us : List Token} {other : String}, DerivesName us other → Token.mark '<' ∉ us :=
        fun hus hopen => absurd (mark_of_derivesName hus hopen) (by decide)
      obtain ⟨rfl, hrest⟩ := append_cons_inj (hfirst hname) (hfirst hname') htokens
      obtain ⟨rfl, rfl⟩ := eq_of_closed hmarks hrest.symm
      obtain rfl := derivesName_unique hname hname'
      obtain ⟨hnil, -⟩ := derivesMarks_iff.mp hmarks
      obtain rfl := List.map_eq_nil_iff.mp hnil.symm
      exact ⟨args, hargs, rfl⟩
    | tuple helements _ _ =>
      obtain ⟨w, more, rfl, -⟩ := parseName_of_derives hname
      simp at htokens
  · rintro ⟨args, hargs, rfl⟩
    exact .generic hname hargs .nil

end TypeExpr

open TypeExpr

/-! ## Uses of a marker -/

namespace Marker

variable {m : Marker} {front name inner : String}

/-- The text is a name, with dots and double colons, whose last word is one of the forms of the marker's name. -/
def IsNamedBy (m : Marker) (front name : String) : Prop :=
  ∃ ns w, Lexes front.toList (ns ++ [.word w]) ∧ DerivesName (ns ++ [.word w]) name ∧ (w = m.shortName ∨ w = m.baseName)

/-- A name with something in angle brackets behind it. -/
def use (front inner : String) : String := front ++ "<" ++ inner ++ ">"

theorem tokens_use {ns : List TypeExpr.Token} (h : Lexes front.toList ns) :
    tokens (use front inner) = ns ++ .mark '<' :: (tokens inner ++ [.mark '>']) := by
  have hclose : tokens (use front inner) = tokens (front ++ "<" ++ inner) ++ [.mark '>'] :=
    tokens_append_close rfl (by decide +kernel) _
  have hopen : tokens (front ++ "<" ++ inner) = tokens front ++ .mark '<' :: tokens inner := by
    rw [String.append_assoc]
    exact tokens_append_mark rfl (by decide +kernel) front inner
  rw [hclose, hopen, (lexes_iff.mp h).1]
  simp

/-- Separators of the words in the name of an attribute. -/
def isSeparator (c : Char) : Bool := c = '.' || c = ':'

theorem isMatch_iff {text : String} : m.isMatch text = true ↔
    trimBlank (lastPiece isSeparator text) = m.shortName ∨ trimBlank (lastPiece isSeparator text) = m.baseName := by
  simp only [isMatch, Bool.or_eq_true, beq_iff_eq]
  rfl

/-- No word has a separator, a blank or an angle bracket in it. -/
theorem of_mem_word {w : String} (h : IsWord w) {c : Char} (hc : c ∈ w.toList) :
    isSeparator c = false ∧ isBlank c = false ∧ c ≠ '>' := by
  have hpart := h.isStart_or_isPart c hc
  refine ⟨?_, ?_, ?_⟩
  · refine Bool.eq_false_iff.mpr fun hseparator => ?_
    have hcases : c = '.' ∨ c = ':' := by simpa [isSeparator] using hseparator
    rcases hcases with rfl | rfl
    · exact absurd hpart (by decide +kernel)
    · exact absurd hpart (by decide +kernel)
  · refine Bool.eq_false_iff.mpr fun hblank => ?_
    rw [isWordStart_of_isBlank hblank, isWordPart_of_isBlank hblank] at hpart
    simp at hpart
  · rintro rfl
    exact absurd hpart (by decide +kernel)

/-- The last part of a name is its last word. -/
theorem lastPiece_of_derivesName {ns : List TypeExpr.Token} {w : String} (h : DerivesName (ns ++ [.word w]) name)
    (hw : IsWord w) : lastPiece isSeparator name = w := by
  have hplain : lastPiece isSeparator w = w := lastPiece_of_none fun c hc => (of_mem_word hw hc).1
  generalize htokens : ns ++ [.word w] = ts at h
  have hlast : ts.getLast? = some (.word w) := by rw [← htokens, List.getLast?_append]; rfl
  cases h with
  | word =>
    obtain rfl : name = w := by simpa using hlast
    exact hplain
  | @dot ts front v _ =>
    obtain rfl : v = w := by simpa using hlast
    rw [lastPiece_append rfl (by decide), hplain]
  | colons =>
    obtain rfl : name = w := by simpa using hlast
    exact hplain

theorem isWord_of_lexes {cs : List Char} {ns : List TypeExpr.Token} {w : String} (h : Lexes cs (ns ++ [.word w])) :
    IsWord w := by
  have hmem : .word w ∈ tokens (String.ofList cs) := by
    rw [tokens, String.toList_ofList, (scan_of_lexes h).1]
    simp
  exact isWord_of_mem_tokens hmem

/-- A name that ends with one of the marker's forms matches. -/
theorem IsNamedBy.isMatch (h : m.IsNamedBy front name) : m.isMatch name = true := by
  obtain ⟨ns, w, hlexes, hname, hform⟩ := h
  have hw : IsWord w := isWord_of_lexes hlexes
  rw [isMatch_iff, lastPiece_of_derivesName hname hw, trimBlank_of_none fun c hc => (of_mem_word hw hc).2.1]
  exact hform

/-- Neither form of a marker that can be named has an angle bracket in it. -/
theorem IsNamedBy.bracket_not_mem (h : m.IsNamedBy front name) : '>' ∉ m.shortName.toList ∧ '>' ∉ m.baseName.toList := by
  obtain ⟨ns, w, hlexes, -, hform⟩ := h
  have hw : IsWord w := isWord_of_lexes hlexes
  have hplain : '>' ∉ w.toList := fun hc => (of_mem_word hw hc).2.2 rfl
  have hbase : '>' ∈ m.baseName.toList ↔ '>' ∈ m.shortName.toList := by
    rw [baseName, String.toList_append, List.mem_append, or_iff_left (by decide)]
  rcases hform with rfl | rfl
  · exact ⟨hplain, fun hc => hplain (hbase.mp hc)⟩
  · exact ⟨fun hc => hplain (hbase.mpr hc), hplain⟩

/-- A text that ends with an angle bracket does not match. -/
theorem IsNamedBy.not_isMatch {text : String} (h : m.IsNamedBy front name) (hend : text.toList.getLast? = some '>') :
    m.isMatch text = false := by
  refine Bool.eq_false_iff.mpr fun hmatch => ?_
  have hbracket : '>' ∈ (trimBlank (lastPiece isSeparator text)).toList := by
    rw [trimBlank, String.toList_ofList]
    exact mem_trimBlanks (by decide) (mem_lastPiece_of_getLast? hend (by decide))
  rcases isMatch_iff.mp hmatch with hshort | hbase
  · exact h.bracket_not_mem.1 (hshort ▸ hbracket)
  · exact h.bracket_not_mem.2 (hbase ▸ hbracket)

end Marker

/-! ## Reading -/

variable {m : Marker} {front name inner : String}

/-- A use with a list of types between the brackets is read as the name with these arguments. -/
theorem Attribute.ofText_use {args : List TypeExpr} (h : m.IsNamedBy front name)
    (hargs : DerivesArgs (tokens inner) args) : ofText (Marker.use front inner) = ⟨name, args⟩ := by
  obtain ⟨ns, w, hlexes, hname, -⟩ := h
  have htype := (derivesType_brackets_iff hname).mpr ⟨args, hargs, rfl⟩
  rw [← Marker.tokens_use hlexes, ← ofTokens?_eq_some_iff] at htype
  rw [ofText, parse, htype]
  rfl

/-- A use with anything else between the brackets is kept as it is. -/
theorem Attribute.ofText_use_of_not_derives (h : m.IsNamedBy front name)
    (hargs : ∀ args, ¬DerivesArgs (tokens inner) args) :
    ofText (Marker.use front inner) = ⟨trimBlank (Marker.use front inner), []⟩ := by
  obtain ⟨ns, w, hlexes, hname, -⟩ := h
  have hnone : ofTokens? (tokens (Marker.use front inner)) = none := by
    rw [Option.eq_none_iff_forall_ne_some]
    intro e he
    rw [ofTokens?_eq_some_iff, Marker.tokens_use hlexes, derivesType_brackets_iff hname] at he
    obtain ⟨args, hderives, -⟩ := he
    exact hargs args hderives
  rw [ofText, parse, hnone]
  rfl

/-- **A use of a marker is recognized exactly if what stands between the brackets is a list of types.** -/
theorem Marker.isMatch_use_iff (h : m.IsNamedBy front name) :
    m.isMatch (Attribute.ofText (use front inner)).name = true ↔ ∃ args, DerivesArgs (tokens inner) args := by
  constructor
  · intro hmatch
    by_contra hnone
    have hargs : ∀ args, ¬DerivesArgs (tokens inner) args := fun args hderives => hnone ⟨args, hderives⟩
    have hend : (trimBlank (use front inner)).toList.getLast? = some '>' := by
      rw [trimBlank, String.toList_ofList, use, String.toList_append]
      exact getLast?_trimBlanks (by decide) _
    rw [Attribute.ofText_use_of_not_derives h hargs, h.not_isMatch hend] at hmatch
    cases hmatch
  · rintro ⟨args, hargs⟩
    rw [Attribute.ofText_use h hargs]
    exact h.isMatch

end ContractStubs
