import ContractStubs.Config.Basic
import ContractStubs.Proofs.Marker.Reading
import ContractStubs.Proofs.Text.Ends
import ContractStubs.Request.Basic

/-!
# The marker that is set

A project sets the name of its marker, in the short or in the base form. What is written as an attribute is the name and
more: a qualifier in front of it, type arguments and marks behind it. So a short name written as an attribute is found
(`Marker.isMatch_of_isShortName`), identifiers among them (`Marker.isShortName_of_isIdentifier`), while a text with
anything more is set in vain: written as an attribute, it is no use of the marker (`Marker.isMatch_of_saysMore`).
-/

namespace ContractStubs

namespace TypeExpr

/-! ## Names that are read -/

theorem mem_of_mem_trimBlanks {c : Char} {cs : List Char} (h : c ∈ trimBlanks cs) : c ∈ cs :=
  (List.dropWhile_suffix isBlank).subset ((List.rdropWhile_prefix isBlank _).subset h)

/-- A declared name is a word. -/
theorem isWord_of_isIdentifier {text : String} (h : isIdentifier text = true) : IsWord text := by
  have hparts : ∀ {cs : List Char}, cs.all isNamePart = true → cs.all isWordPart = true := fun hcs =>
    List.all_eq_true.mpr fun c hc => isWordPart_of_isNamePart (List.all_eq_true.mp hcs c hc)
  have hplain : ∀ {c : Char} {cs : List Char}, isPlainName (c :: cs) = true →
      isWordStart c = true ∧ (c :: cs).all isWordPart = true := fun {c cs} hcs => by
    have hname := List.all_eq_true.mpr (isNamePart_of_isPlainName hcs)
    rw [isPlainName, Bool.and_eq_true, isNameStart, Bool.or_eq_true] at hcs
    refine ⟨?_, hparts hname⟩
    rcases hcs.1 with hletter | hline
    · rw [isWordStart, isAlphabetic_of_isLetter hletter, Bool.or_true]
    · rw [isWordStart, hline, Bool.or_true, Bool.true_or]
  rw [isIdentifier, isName.eq_def] at h
  split at h
  next cs htext =>
    cases cs with
    | nil => cases h
    | cons c cs => exact ⟨'@', c :: cs, htext, by decide +kernel, (hplain h).2⟩
  next =>
    cases htext : text.toList with
    | nil =>
      rw [htext] at h
      cases h
    | cons c cs =>
      rw [htext] at h
      refine ⟨c, cs, htext, (hplain h).1, ?_⟩
      exact (Bool.and_eq_true _ _ ▸ List.all_cons ▸ (hplain h).2).2

theorem derives_of_isWord {text : String} (h : IsWord text) : Derives text (.named text [] "") :=
  derives_iff_ofTokens?.mpr (by
    rw [ofTokens?_eq_some_iff, tokens_word h]
    exact .plain (.word text) .nil)

/-- A word is read as the name that it is. -/
theorem parse_of_isWord {text : String} (h : IsWord text) : parse text = .named text [] "" :=
  ((parse_iff_derives text).1 _ |>.mp (derives_of_isWord h)).1

/-- A name ends with a word. -/
theorem exists_last_of_derivesName {ts : List Token} {name : String} (h : DerivesName ts name) :
    ∃ front w, ts = front ++ [.word w] := by
  cases h with
  | word => exact ⟨[], name, rfl⟩
  | @dot front _ w => exact ⟨front ++ [.mark '.'], w, by simp⟩
  | @colons front => exact ⟨front ++ [.colons], name, by simp⟩

/-- What is read as a name with or without type arguments starts with a name. -/
theorem derivesName_of_parse {text name suffix : String} {args : List TypeExpr}
    (h : parse text = .named name args suffix) :
    ∃ front w, DerivesName (front ++ [.word w]) name ∧ IsWord w := by
  obtain ⟨ts, hlexes, htype⟩ := ((parse_iff_derives text).1 _).mpr ⟨h, nofun⟩
  obtain ⟨htokens, -⟩ := lexes_iff.mp hlexes
  have hname : ∃ ns more, ts = ns ++ more ∧ DerivesName ns name := by
    cases htype with
    | plain hname => exact ⟨_, _, rfl, hname⟩
    | generic hname => exact ⟨_, _, rfl, hname⟩
  obtain ⟨ns, more, rfl, hname⟩ := hname
  obtain ⟨front, w, rfl⟩ := exists_last_of_derivesName hname
  have hmem : .word w ∈ tokens text := by simp [htokens]
  exact ⟨front, w, hname, isWord_of_mem_tokens hmem⟩

theorem IsWord.append {w ending : String} (h : IsWord w) (hending : ending.toList.all isWordPart = true) :
    IsWord (w ++ ending) := by
  obtain ⟨c, cs, htext, hc, hcs⟩ := h
  exact ⟨c, cs ++ ending.toList, by rw [String.toList_append, htext, List.cons_append], hc,
    by rw [List.all_append, hcs, hending, Bool.true_and]⟩

theorem IsWord.of_append {w text ending : String} (h : IsWord w) (hne : text ≠ "") (hw : w = text ++ ending) :
    IsWord text := by
  obtain ⟨c, cs, htext, hc, hcs⟩ := h
  rw [hw, String.toList_append] at htext
  cases hfront : text.toList with
  | nil => exact absurd (String.toList_eq_nil_iff.mp hfront) hne
  | cons d ds =>
    rw [hfront, List.cons_append] at htext
    obtain ⟨rfl, rfl⟩ := List.cons.inj htext
    rw [List.all_append, Bool.and_eq_true] at hcs
    exact ⟨d, ds, hfront, hc, hcs.1⟩

/-- No blank is in a name with dots. -/
theorem isBlank_of_mem_dotted : ∀ {words : List String}, (∀ w ∈ words, IsWord w) → ∀ {name : String},
    (∀ c ∈ name.toList, isBlank c = false) → ∀ c ∈ (dotted name words).toList, isBlank c = false
  | [], _, _, hname => hname
  | w :: words, hwords, name, hname => by
    obtain ⟨hw, hrest⟩ := List.forall_mem_cons.mp hwords
    have hbehind : ∀ c ∈ (name ++ "." ++ w).toList, isBlank c = false := fun c hc => by
      rw [String.toList_append, String.toList_append, List.mem_append, List.mem_append] at hc
      rcases hc with (hc | hc) | hc
      · exact hname c hc
      · obtain rfl : c = '.' := by simpa using hc
        decide
      · exact (Marker.of_mem_word hw hc).2.1
    exact isBlank_of_mem_dotted hrest hbehind

/-- The text of a tuple starts and ends with others than blanks. -/
theorem isSolid_toText_tuple {elements : List (TypeExpr × Option String)} {suffix : String} (h : IsSuffix suffix) :
    IsSolid (tuple elements suffix).toText.toList where
  first := ⟨'(', _, by rw [toText, String.toList_append, String.toList_append, String.toList_append]; rfl, by decide⟩
  last := by
    rcases List.eq_nil_or_concat suffix.toList with hnil | ⟨front, c, hlast⟩
    · exact ⟨_, ')', by rw [toText, String.toList_append, String.toList_append, hnil, List.append_nil]; rfl, by decide⟩
    · have hmark := mem_suffixChars_of_isMarks false _ h c (by simp [hlast])
      have hall : suffixChars.all (fun c => !isBlank c) = true := by decide
      refine ⟨_, c, by rw [toText, String.toList_append, hlast, List.concat_eq_append, ← List.append_assoc], ?_⟩
      simpa using List.all_eq_true.mp hall c hmark

end TypeExpr

open TypeExpr

/-- The name of an attribute has no blanks around it. -/
theorem Attribute.trimBlank_name_ofText (text : String) : trimBlank (ofText text).name = (ofText text).name := by
  rw [ofText]
  rcases isShaped_of_parse text with hshape | ⟨-, hkept⟩
  · cases hparse : parse text with
    | named name args suffix =>
      rw [hparse] at hshape
      obtain ⟨⟨first, words, hfirst, hwords, rfl⟩, -⟩ := hshape
      exact trimBlank_of_none (isBlank_of_mem_dotted hwords fun c hc => (Marker.of_mem_word hfirst hc).2.1)
    | tuple elements suffix =>
      rw [hparse] at hshape
      have hsolid : trimBlanks ([] ++ (tuple elements suffix).toText.toList ++ []) = _ :=
        (isSolid_toText_tuple hshape.2.2).trimBlanks (List.forall_mem_nil _) (List.forall_mem_nil _)
      rw [List.nil_append, List.append_nil] at hsolid
      rw [trimBlank, hsolid, String.ofList_toList]
    | verbatim kept =>
      rw [hparse] at hshape
      exact hshape.elim
  · rw [hkept]
    exact trimBlank_trimBlank text

/-! ## Short names -/

namespace Marker

variable {text : String}

/-- Written as an attribute the text is the name that it is, and no qualifier is in it. -/
def IsShortName (text : String) : Prop :=
  (Attribute.ofText text).name = text ∧ ∀ c ∈ text.toList, isSeparator c = false

/-- The text has a qualifier in it, or type arguments or marks behind a name. -/
def SaysMore (text : String) : Prop :=
  (∃ c ∈ text.toList, isSeparator c = true) ∨
    ∃ name args suffix, parse text = .named name args suffix ∧ (args ≠ [] ∨ suffix ≠ "")

/-- Every declared name is a short name. -/
theorem isShortName_of_isIdentifier (h : isIdentifier text = true) : IsShortName text := by
  have hword := isWord_of_isIdentifier h
  refine ⟨?_, fun c hc => (of_mem_word hword hc).1⟩
  rw [Attribute.ofText, parse_of_isWord hword]

/-- The name that a marker was given is one of its two forms. -/
theorem eq_form_ofName (text : String) : text = (ofName text).shortName ∨ text = (ofName text).baseName := by
  cases h : stripEnding? "Attribute" text with
  | none => exact .inl (by rw [ofName, h, Option.getD_none])
  | some short =>
    refine .inr ?_
    obtain ⟨cs, hcs, rfl⟩ := Option.map_eq_some_iff.mp h
    have hreverse := congrArg List.reverse (afterOpening?_eq_some_iff.mp hcs)
    rw [List.reverse_reverse, List.reverse_append, List.reverse_reverse] at hreverse
    rw [baseName, ofName, h, Option.getD_some, ← String.toList_inj, hreverse, String.toList_append]
    exact congrArg (· ++ _) String.toList_ofList.symm

/-- **A short name is found** where it is written as an attribute. -/
theorem isMatch_of_isShortName (h : IsShortName text) :
    (ofName text).isMatch (Attribute.ofText text).name = true := by
  have htrim := Attribute.trimBlank_name_ofText text
  rw [h.1] at htrim ⊢
  rw [isMatch_iff, lastPiece_of_none h.2, htrim]
  exact eq_form_ofName text

theorem getLastD_mem_piecesAt (cs : List Char) : (piecesAt isSeparator cs).getLastD [] ∈ piecesAt isSeparator cs := by
  have hne : piecesAt isSeparator cs ≠ [] := piecesAt_ne_nil cs
  rw [List.getLastD_eq_getLast?, List.getLast?_eq_some_getLast hne, Option.getD_some]
  exact List.getLast_mem hne

/-- What matches has no separator in it. -/
theorem not_isMatch_of_separator {c : Char} (hc : c ∈ text.toList) (hseparator : isSeparator c = true) (name : String) :
    (ofName text).isMatch name = false := by
  have hshort : c ∈ (ofName text).shortName.toList := by
    have hending : c ∉ "Attribute".toList := fun hmem => by
      have hall : "Attribute".toList.all (fun d => !isSeparator d) = true := by decide
      exact absurd hseparator (by simpa using List.all_eq_true.mp hall c hmem)
    rcases eq_form_ofName text with h | h
    · exact h ▸ hc
    · rw [h, baseName, String.toList_append] at hc
      exact (List.mem_append.mp hc).resolve_right hending
  have hpiece : c ∉ (trimBlank (lastPiece isSeparator name)).toList := fun hmem => by
    rw [trimBlank, String.toList_ofList] at hmem
    have hlast := mem_of_mem_trimBlanks hmem
    rw [lastPiece, String.toList_ofList] at hlast
    have hno := eq_false_of_mem_piecesAt (getLastD_mem_piecesAt name.toList) c hlast
    exact Bool.false_ne_true (hno.symm.trans hseparator)
  refine Bool.eq_false_iff.mpr fun hmatch => hpiece ?_
  rcases isMatch_iff.mp hmatch with h | h
  · rwa [h]
  · rw [h, baseName, String.toList_append]
    exact List.mem_append_left _ hshort

/-- A marker that is found by its own text is a word, if a name is read from the text. -/
theorem isWord_of_isMatch {name suffix : String} {args : List TypeExpr} (h : parse text = .named name args suffix)
    (hmatch : (ofName text).isMatch name = true) : IsWord text := by
  obtain ⟨front, w, hname, hw⟩ := derivesName_of_parse h
  rw [isMatch_iff, lastPiece_of_derivesName hname hw, trimBlank_of_none fun c hc => (of_mem_word hw hc).2.1] at hmatch
  -- The word is the short or the base form of the text, and so is the text itself.
  rcases eq_form_ofName text with hshort | hbase
  · rcases hmatch with hmatch | hmatch
    · rwa [hshort, ← hmatch]
    · have hlonger : w = text ++ "Attribute" := hmatch.trans (by rw [baseName, ← hshort])
      refine hw.of_append ?_ hlonger
      rintro rfl
      have hempty : parse "" = .verbatim "" := by decide +kernel
      cases hempty.symm.trans h
  · rcases hmatch with hmatch | hmatch
    · rw [hbase, baseName, ← hmatch]
      exact hw.append (by decide +kernel)
    · rwa [hbase, ← hmatch]

/-- **A text that says more than a short name is not found** where it is written as an attribute. -/
theorem isMatch_of_saysMore (h : SaysMore text) : (ofName text).isMatch (Attribute.ofText text).name = false := by
  rcases h with ⟨c, hc, hseparator⟩ | ⟨name, args, suffix, hparse, hmore⟩
  · exact not_isMatch_of_separator hc hseparator _
  · rw [Attribute.ofText, hparse]
    refine Bool.eq_false_iff.mpr fun hmatch => ?_
    obtain ⟨-, rfl, rfl⟩ := named.inj ((parse_of_isWord (isWord_of_isMatch hparse hmatch)).symm.trans hparse)
    simp at hmore

end Marker

/-! ## Configurations -/

namespace Config

/-- **The marker that is set**: where a short name is set, a declaration with this attribute is a candidate, whatever
its other attributes are. A text with a qualifier, type arguments or marks makes no candidate of a declaration that has
this attribute alone. Identifiers are short names. -/
theorem finds_own_marker (c : Config) (d : Declaration) (hk : d.kind.acceptsMarker = true) :
    (Marker.IsShortName c.marker → Attribute.ofText c.marker ∈ d.attributes → isCandidate c.markerSought d = true) ∧
      (Marker.SaysMore c.marker → d.attributes = [Attribute.ofText c.marker] →
        isCandidate c.markerSought d = false) ∧
      (isIdentifier c.marker = true → Marker.IsShortName c.marker) := by
  refine ⟨fun hshort hmem => ?_, fun hmore hsole => ?_, Marker.isShortName_of_isIdentifier⟩
  · rw [isCandidate, hk, Bool.true_and, List.any_eq_true]
    exact ⟨_, hmem, Marker.isMatch_of_isShortName hshort⟩
  · rw [isCandidate, hk, Bool.true_and, hsole, List.any_cons, List.any_nil, Bool.or_false]
    exact Marker.isMatch_of_saysMore hmore

/-- A class with one attribute. -/
def widget (a : Attribute) : Declaration :=
  ⟨0, .classType, "Widget", none, [], [], [a], [], [], [], "class Widget { }", none, false⟩

/-- A class with the attribute that is set. -/
theorem implements_found :
    isCandidate { standard with marker := "Implements" }.markerSought (widget (.ofText "Implements")) = true :=
  have h := finds_own_marker { standard with marker := "Implements" } (widget (.ofText "Implements")) rfl
  h.1 (h.2.2 (by decide +kernel)) List.mem_cons_self

/-- A marker with a qualifier is accepted, and not found. -/
theorem qualified_marker_not_found :
    let c := { standard with marker := "Demo.Implements" }
    c.validate = .ok () ∧ (widget (.ofText c.marker)).kind.acceptsMarker = true ∧
      isCandidate c.markerSought (widget (.ofText c.marker)) = false := by
  decide +kernel

end Config

end ContractStubs
