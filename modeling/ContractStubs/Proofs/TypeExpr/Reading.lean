import ContractStubs.Proofs.TypeExpr.Scan
import ContractStubs.TypeExpr.Parser
import ContractStubs.TypeExpr.Printer

/-!
# Reading what was written

* `IsShaped` says that a type expression has a shape: names are made of words, suffixes of marks, and nothing inside is
  kept verbatim. What the parser reads has a shape (`isShaped_of_parse`).
* The tokens of a shaped expression's text mirror its structure (`tokens_toText`), and the parser finds that structure
  in them, whatever follows (`parseType_exprTokens`).
* So an expression that was read from some text is read from its own text again (`parse_toText_parse`,
  `respelling_is_stable`).
-/

namespace ContractStubs

namespace TypeExpr

/-! ## Shaped expressions -/

/-- The characters are array, nullable and pointer marks, `inside` telling whether a bracket is open. -/
def isMarks : (inside : Bool) → List Char → Bool
  | false, [] => true
  | false, '?' :: cs => isMarks false cs
  | false, '*' :: cs => isMarks false cs
  | false, '[' :: cs => isMarks true cs
  | true, ',' :: cs => isMarks true cs
  | true, ']' :: cs => isMarks false cs
  | _, _ => false

/-- The text can stand behind a type. -/
def IsSuffix (text : String) : Prop := isMarks false text.toList = true

mutual

/-- The expression has a shape all the way down. -/
def IsShaped : TypeExpr → Prop
  | .named name args suffix => IsDotted name ∧ AllShaped args ∧ IsSuffix suffix
  | .tuple elements suffix => 2 ≤ elements.length ∧ ElementsShaped elements ∧ IsSuffix suffix
  | .verbatim _ => False

/-- Type arguments have shapes. -/
def AllShaped : List TypeExpr → Prop
  | [] => True
  | arg :: args => IsShaped arg ∧ AllShaped args

/-- Tuple elements have shapes, and their names are words. -/
def ElementsShaped : List (TypeExpr × Option String) → Prop
  | [] => True
  | (type, name?) :: elements => (IsShaped type ∧ ∀ name ∈ name?, IsWord name) ∧ ElementsShaped elements

end

theorem allShaped_iff : ∀ {es : List TypeExpr}, AllShaped es ↔ ∀ e ∈ es, IsShaped e
  | [] => by simp [AllShaped]
  | e :: es => by rw [AllShaped, allShaped_iff, List.forall_mem_cons]

theorem elementsShaped_iff : ∀ {elements : List (TypeExpr × Option String)},
    ElementsShaped elements ↔ ∀ e ∈ elements, IsShaped e.1 ∧ ∀ name ∈ e.2, IsWord name
  | [] => by simp [ElementsShaped]
  | (e, name) :: elements => by rw [ElementsShaped, elementsShaped_iff, List.forall_mem_cons]

/-! ## The tokens of a shaped expression -/

/-- A suffix as tokens. -/
def suffixTokens (suffix : String) : List Token := suffix.toList.map .mark

mutual

/-- The tokens of an expression. -/
def exprTokens : TypeExpr → List Token
  | .named name [] suffix => tokens name ++ suffixTokens suffix
  | .named name (arg :: args) suffix => tokens name ++ .mark '<' :: (argTokens (arg :: args) ++ suffixTokens suffix)
  | .tuple elements suffix => .mark '(' :: (elementTokens elements ++ suffixTokens suffix)
  | .verbatim text => tokens text

/-- The tokens of type arguments, the closing bracket included. -/
def argTokens : List TypeExpr → List Token
  | [] => [.mark '>']
  | [arg] => exprTokens arg ++ [.mark '>']
  | arg :: next :: args => exprTokens arg ++ .mark ',' :: argTokens (next :: args)

/-- The tokens of tuple elements, the closing parenthesis included. -/
def elementTokens : List (TypeExpr × Option String) → List Token
  | [] => [.mark ')']
  | [(type, name?)] => exprTokens type ++ name?.toList.map .word ++ [.mark ')']
  | (type, name?) :: element :: elements =>
    exprTokens type ++ name?.toList.map .word ++ .mark ',' :: elementTokens (element :: elements)

end

theorem argTexts_eq_map : ∀ es : List TypeExpr, argTexts es = es.map toText
  | [] => rfl
  | e :: es => by rw [argTexts, argTexts_eq_map es, List.map_cons]

theorem elementTexts_eq_map : ∀ elements : List (TypeExpr × Option String),
    elementTexts elements = elements.map fun e => elementText e.1.toText e.2
  | [] => rfl
  | (e, name) :: elements => by rw [elementTexts, elementTexts_eq_map elements, List.map_cons]

/-! ## The tokens of the text -/

/-- The characters of suffixes. -/
def suffixChars : List Char := ['?', '*', '[', ',', ']']

theorem mem_suffixChars_of_isMarks : ∀ (inside : Bool) (cs : List Char), isMarks inside cs = true →
    ∀ c ∈ cs, c ∈ suffixChars := by
  intro inside cs
  fun_induction isMarks inside cs with
  | case1 => simp
  | case7 => simp
  | case2 cs ih | case3 cs ih | case4 cs ih | case5 cs ih | case6 cs ih =>
    intro h c hc
    rcases List.mem_cons.mp hc with rfl | hc
    · decide
    · exact ih h c hc

theorem isSoleMark_of_isMarks {inside : Bool} {cs : List Char} (h : isMarks inside cs = true) :
    ∀ c ∈ cs, isSoleMark c = true := by
  have hall : suffixChars.all isSoleMark = true := by decide +kernel
  exact fun c hc => List.all_eq_true.mp hall c (mem_suffixChars_of_isMarks inside cs h c hc)

theorem scan_of_isSoleMark : ∀ {cs : List Char}, (∀ c ∈ cs, isSoleMark c = true) → scan [] cs = cs.map .mark
  | [], _ => rfl
  | c :: cs, h => by
    rw [scan_mark (h c (by simp)), scan_of_isSoleMark fun d hd => h d (by simp [hd]), List.map_cons]

theorem breaks_of_isSuffix {suffix : String} (h : IsSuffix suffix) : Breaks suffix.toList := by
  cases hs : suffix.toList with
  | nil => exact breaks_nil
  | cons c cs => exact breaks_of_isSoleMark (isSoleMark_of_isMarks h c (by simp [hs]))

theorem tokens_suffix {suffix : String} (h : IsSuffix suffix) : tokens suffix = suffixTokens suffix :=
  scan_of_isSoleMark (isSoleMark_of_isMarks h)

theorem tokens_blank_append (text : String) : tokens (" " ++ text) = tokens text := by
  rw [tokens, String.toList_append]
  exact scan_blank (by decide)

/-- A text up to a mark, and what follows the mark. -/
theorem tokens_append_mark {mark : String} {c : Char} (hmark : mark.toList = [c]) (hc : isSoleMark c = true)
    (a b : String) : tokens (a ++ (mark ++ b)) = tokens a ++ .mark c :: tokens b := by
  rw [tokens_append, tokens_mark_append hmark hc]
  rw [String.toList_append, hmark]
  exact breaks_of_isSoleMark hc

theorem tokens_append_blank (a b : String) : tokens (a ++ (" " ++ b)) = tokens a ++ tokens b := by
  rw [tokens_append, tokens_blank_append]
  rw [String.toList_append]
  exact breaks_of_isBlank (by decide)

theorem tokens_append_comma (a b : String) : tokens (a ++ (", " ++ b)) = tokens a ++ .mark ',' :: tokens b := by
  have hcomma : ", " ++ b = "," ++ (" " ++ b) := by rw [← String.append_assoc]; rfl
  rw [hcomma, tokens_append_mark (c := ',') rfl (by decide +kernel), tokens_blank_append]

theorem tokens_append_close {mark : String} {c : Char} (hmark : mark.toList = [c]) (hc : isSoleMark c = true)
    (a : String) : tokens (a ++ mark) = tokens a ++ [.mark c] := by
  have h := tokens_append_mark hmark hc a ""
  rwa [String.append_empty] at h

/-- A tuple element as tokens: its type, and its name where it has one. -/
theorem tokens_elementText {type : String} {name? : Option String} (h : ∀ name ∈ name?, IsWord name) :
    tokens (elementText type name?) = tokens type ++ name?.toList.map .word := by
  cases name? with
  | none => simp [elementText]
  | some name => rw [elementText, String.append_assoc, tokens_append_blank, tokens_word (h name rfl)]; rfl

theorem commaSeparated_cons_cons (text next : String) (texts : List String) :
    commaSeparated (text :: next :: texts) = text ++ (", " ++ commaSeparated (next :: texts)) := by
  rw [commaSeparated, String.intercalate_cons_cons, String.append_assoc, commaSeparated]

mutual

/-- **The tokens of a shaped expression's text are its own.** -/
theorem tokens_toText : ∀ e : TypeExpr, IsShaped e → tokens e.toText = exprTokens e
  | .named name [] suffix, h => by
    rw [toText, tokens_append (breaks_of_isSuffix h.2.2), tokens_suffix h.2.2, exprTokens]
  | .named name (arg :: args) suffix, h => by
    have hargs := tokens_argTexts (arg :: args) h.2.1 (by simp)
    rw [toText, tokens_append (breaks_of_isSuffix h.2.2), tokens_suffix h.2.2, String.append_assoc, String.append_assoc,
      tokens_append_mark (c := '<') rfl (by decide +kernel), exprTokens]
    rw [argTexts] at hargs
    rw [hargs, List.append_assoc, List.cons_append]
  | .tuple elements suffix, h => by
    have hne : elements ≠ [] := by rintro rfl; exact absurd h.1 (by simp)
    rw [toText, tokens_append (breaks_of_isSuffix h.2.2), tokens_suffix h.2.2, String.append_assoc,
      tokens_mark_append (c := '(') rfl (by decide +kernel), tokens_elementTexts elements h.2.1 hne, exprTokens,
      List.cons_append]
  | .verbatim _, h => h.elim

theorem tokens_argTexts : ∀ args : List TypeExpr, AllShaped args → args ≠ [] →
    tokens (commaSeparated (argTexts args) ++ ">") = argTokens args
  | [], _, h => absurd rfl h
  | [arg], h, _ => by
    rw [argTexts, argTexts, commaSeparated, String.intercalate_singleton,
      tokens_append_close (c := '>') rfl (by decide +kernel), tokens_toText arg h.1, argTokens]
  | arg :: next :: args, h, _ => by
    have hrest := tokens_argTexts (next :: args) h.2 (by simp)
    rw [argTexts] at hrest
    rw [argTexts, argTexts, commaSeparated_cons_cons, String.append_assoc, String.append_assoc, tokens_append_comma,
      tokens_toText arg h.1, hrest, argTokens]

theorem tokens_elementTexts : ∀ elements : List (TypeExpr × Option String), ElementsShaped elements → elements ≠ [] →
    tokens (commaSeparated (elementTexts elements) ++ ")") = elementTokens elements
  | [], _, h => absurd rfl h
  | [(type, name?)], h, _ => by
    rw [elementTexts, elementTexts, commaSeparated, String.intercalate_singleton,
      tokens_append_close (c := ')') rfl (by decide +kernel), tokens_elementText h.1.2, tokens_toText type h.1.1,
      elementTokens]
  | (type, name?) :: (next, nextName?) :: elements, h, _ => by
    have hrest := tokens_elementTexts ((next, nextName?) :: elements) h.2 (by simp)
    rw [elementTexts] at hrest
    rw [elementTexts, elementTexts, commaSeparated_cons_cons, String.append_assoc, String.append_assoc,
      tokens_append_comma, tokens_elementText h.1.2, tokens_toText type h.1.1, hrest, elementTokens]

end

/-! ## The parser on these tokens -/

/-- Nothing of a type goes on here. -/
def Follows : List Token → Prop
  | [] => True
  | .word _ :: _ => True
  | .colons :: _ => False
  | .mark c :: _ => c = ',' ∨ c = '>' ∨ c = ')'

/-- The tokens do not go on with a name, and no type arguments follow it. -/
def EndsName (ts : List Token) : Prop := ∀ t ∈ ts.head?, t ≠ .mark '.' ∧ t ≠ .colons

variable {ts rest : List Token} {fuel : Nat}

theorem parseName_of_endsName (h : EndsName ts) (name : String) : parseName name ts = some (name, ts) := by
  match ts, h with
  | [], _ => rfl
  | .word _ :: _, _ => rfl
  | .colons :: _, h => exact absurd rfl (h _ rfl).2
  | .mark c :: ts, h =>
    have hc : c ≠ '.' := fun hc => (h _ rfl).1 (by rw [hc])
    rw [parseName.eq_def]
    split <;> simp_all

/-- Words behind dots go on with a name. -/
theorem parseName_dotTokens (h : EndsName ts) : ∀ (words : List String) (name : String),
    parseName name (dotTokens words ++ ts) = some (dotted name words, ts)
  | [], name => parseName_of_endsName h name
  | w :: words, name => by
    have hih := parseName_dotTokens h words (name ++ "." ++ w)
    simp only [dotTokens, dotted, List.flatMap_cons, List.cons_append, List.nil_append, List.foldl_cons] at hih ⊢
    rw [parseName, hih]

theorem parseMarks_of_isMarks (h : Follows rest) : ∀ (inside : Bool) (cs : List Char), isMarks inside cs = true →
    parseMarks inside (cs.map .mark ++ rest) = some (cs, rest) := by
  intro inside cs
  fun_induction isMarks inside cs with
  | case1 =>
    intro _
    match rest, h with
    | [], _ => rfl
    | .word _ :: _, _ => rfl
    | .mark _ :: _, .inl rfl => rfl
    | .mark _ :: _, .inr (.inl rfl) => rfl
    | .mark _ :: _, .inr (.inr rfl) => rfl
  | case7 => simp
  | case2 cs ih | case3 cs ih | case4 cs ih | case5 cs ih | case6 cs ih =>
    intro hcs
    rw [List.map_cons, List.cons_append, parseMarks, ih hcs]
    rfl

theorem parseSuffix_suffixTokens {suffix : String} (hs : IsSuffix suffix) (h : Follows rest) :
    parseSuffix (suffixTokens suffix ++ rest) = some (suffix, rest) := by
  rw [parseSuffix, suffixTokens, parseMarks_of_isMarks h false _ hs]
  simp

/-- A suffix neither goes on with a name nor opens type arguments. -/
theorem ne_of_mem_head?_suffixTokens {suffix : String} (hs : IsSuffix suffix) (h : Follows rest) :
    ∀ t ∈ (suffixTokens suffix ++ rest).head?, (t ≠ .mark '.' ∧ t ≠ .colons) ∧ t ≠ .mark '<' := by
  intro t ht
  rw [List.head?_append, suffixTokens] at ht
  cases hcs : suffix.toList with
  | cons c cs =>
    obtain rfl : Token.mark c = t := by simpa [hcs] using ht
    have hc := mem_suffixChars_of_isMarks false _ hs c (by simp [hcs])
    simp only [suffixChars, List.mem_cons, List.not_mem_nil, or_false] at hc
    rcases hc with rfl | rfl | rfl | rfl | rfl <;> decide
  | nil =>
    have ht' : t ∈ rest.head? := by simpa [hcs] using ht
    match rest, h with
    | .word _ :: _, _ => obtain rfl : _ = t := by simpa using ht'
                         simp
    | .mark c :: _, h =>
      obtain rfl : Token.mark c = t := by simpa using ht'
      rcases h with rfl | rfl | rfl <;> decide

theorem parseArgs_of_ne (h : ∀ t ∈ ts.head?, t ≠ .mark '<') (hf : 0 < fuel) : parseArgs fuel ts = some ([], ts) := by
  obtain ⟨fuel, rfl⟩ := Nat.exists_eq_add_of_lt hf
  match ts, h with
  | [], _ => rfl
  | .word _ :: _, _ => rfl
  | .colons :: _, _ => rfl
  | .mark c :: ts, h =>
    have hc : c ≠ '<' := fun hc => h _ rfl (by rw [hc])
    rw [Nat.zero_add, parseArgs]
    rintro ts' he
    injection he with he
    injection he with he
    exact hc he

/-- The name of an element, up to a mark. -/
theorem parseElementName_mark (name? : Option String) (c : Char) (ts : List Token) :
    parseElementName (name?.toList.map .word ++ .mark c :: ts) = (name?, .mark c :: ts) := by
  cases name? <;> rfl

theorem follows_elementName (name? : Option String) {c : Char} (hc : c = ',' ∨ c = '>' ∨ c = ')') :
    Follows (name?.toList.map .word ++ .mark c :: ts) := by
  cases name? with
  | none => exact hc
  | some name => trivial

mutual

/-- **The parser finds a shaped expression in its tokens, whatever follows the expression.** -/
theorem parseType_exprTokens : ∀ (e : TypeExpr) (fuel : Nat) (rest : List Token), IsShaped e → Follows rest →
    3 * (exprTokens e).length ≤ fuel → parseType fuel (exprTokens e ++ rest) = some (e, rest)
  | .named name [] suffix, fuel, rest, h, hrest, hf => by
    obtain ⟨⟨first, words, hfirst, hwords, rfl⟩, -, hsuffix⟩ := h
    have hstop := ne_of_mem_head?_suffixTokens hsuffix hrest
    rw [exprTokens, tokens_dotted hfirst hwords] at hf ⊢
    simp only [List.length_append, List.length_cons] at hf
    obtain ⟨fuel, rfl⟩ := Nat.exists_eq_add_of_le' (show 1 ≤ fuel by omega)
    have hname := parseName_dotTokens (fun t ht => (hstop t ht).1) words first
    have hargs := parseArgs_of_ne (fun t ht => (hstop t ht).2) (show 0 < fuel by omega)
    simp [parseType, hname, hargs, parseSuffix_suffixTokens hsuffix hrest]
  | .named name (arg :: args) suffix, fuel, rest, h, hrest, hf => by
    obtain ⟨⟨first, words, hfirst, hwords, rfl⟩, hshaped, hsuffix⟩ := h
    rw [exprTokens, tokens_dotted hfirst hwords] at hf ⊢
    simp only [List.length_append, List.length_cons] at hf
    obtain ⟨fuel, rfl⟩ := Nat.exists_eq_add_of_le' (show 1 ≤ fuel by omega)
    have hstop : EndsName (.mark '<' :: (argTokens (arg :: args) ++ (suffixTokens suffix ++ rest))) := by
      simp [EndsName]
    have hname := parseName_dotTokens hstop words first
    have hargs : parseArgs fuel (.mark '<' :: (argTokens (arg :: args) ++ (suffixTokens suffix ++ rest))) =
        some (arg :: args, suffixTokens suffix ++ rest) := by
      obtain ⟨inner, rfl⟩ := Nat.exists_eq_add_of_le' (show 1 ≤ fuel by omega)
      exact parseArgList_argTokens (arg :: args) inner (suffixTokens suffix ++ rest) hshaped (by simp) (by omega)
    simp [parseType, hname, hargs, parseSuffix_suffixTokens hsuffix hrest]
  | .tuple elements suffix, fuel, rest, h, hrest, hf => by
    obtain ⟨htwo, hshaped, hsuffix⟩ := h
    have hne : elements ≠ [] := by rintro rfl; exact absurd htwo (by simp)
    rw [exprTokens, List.length_cons, List.length_append] at hf
    obtain ⟨fuel, rfl⟩ := Nat.exists_eq_add_of_le' (show 1 ≤ fuel by omega)
    have helements := parseElements_elementTokens elements fuel (suffixTokens suffix ++ rest) hshaped hne (by omega)
    simp only [exprTokens, List.cons_append, List.append_assoc, parseType, helements, Option.bind_eq_bind,
      Option.bind_some, if_neg (Nat.not_lt.mpr htwo), parseSuffix_suffixTokens hsuffix hrest]
  | .verbatim _, _, _, h, _, _ => h.elim

theorem parseArgList_argTokens : ∀ (args : List TypeExpr) (fuel : Nat) (rest : List Token), AllShaped args → args ≠ [] →
    3 * (argTokens args).length ≤ fuel → parseArgList fuel (argTokens args ++ rest) = some (args, rest)
  | [], _, _, _, h, _ => absurd rfl h
  | [arg], fuel, rest, h, _, hf => by
    rw [argTokens, List.length_append, List.length_singleton] at hf
    obtain ⟨fuel, rfl⟩ := Nat.exists_eq_add_of_le' (show 1 ≤ fuel by omega)
    have harg := parseType_exprTokens arg fuel (.mark '>' :: rest) h.1 (.inr (.inl rfl)) (by omega)
    simp [argTokens, parseArgList, harg]
  | arg :: next :: args, fuel, rest, h, _, hf => by
    rw [argTokens, List.length_append, List.length_cons] at hf
    obtain ⟨fuel, rfl⟩ := Nat.exists_eq_add_of_le' (show 1 ≤ fuel by omega)
    have harg := parseType_exprTokens arg fuel (.mark ',' :: (argTokens (next :: args) ++ rest)) h.1 (.inl rfl)
      (by omega)
    have hargs := parseArgList_argTokens (next :: args) fuel rest h.2 (by simp) (by omega)
    simp [argTokens, parseArgList, harg, hargs]

theorem parseElements_elementTokens : ∀ (elements : List (TypeExpr × Option String)) (fuel : Nat) (rest : List Token),
    ElementsShaped elements → elements ≠ [] → 3 * (elementTokens elements).length ≤ fuel →
      parseElements fuel (elementTokens elements ++ rest) = some (elements, rest)
  | [], _, _, _, h, _ => absurd rfl h
  | [(type, name?)], fuel, rest, h, _, hf => by
    rw [elementTokens, List.length_append, List.length_append, List.length_singleton] at hf
    obtain ⟨fuel, rfl⟩ := Nat.exists_eq_add_of_le' (show 1 ≤ fuel by omega)
    have htype := parseType_exprTokens type fuel (name?.toList.map .word ++ .mark ')' :: rest) h.1.1
      (follows_elementName name? (.inr (.inr rfl))) (by omega)
    simp [elementTokens, parseElements, htype, parseElementName_mark]
  | (type, name?) :: next :: elements, fuel, rest, h, _, hf => by
    rw [elementTokens, List.length_append, List.length_append, List.length_cons] at hf
    obtain ⟨fuel, rfl⟩ := Nat.exists_eq_add_of_le' (show 1 ≤ fuel by omega)
    have htype := parseType_exprTokens type fuel
      (name?.toList.map .word ++ .mark ',' :: (elementTokens (next :: elements) ++ rest)) h.1.1
      (follows_elementName name? (.inl rfl)) (by omega)
    have helements := parseElements_elementTokens (next :: elements) fuel rest h.2 (by simp) (by omega)
    simp [elementTokens, parseElements, htype, helements, parseElementName_mark]

end

theorem ofTokens?_exprTokens {e : TypeExpr} (h : IsShaped e) : ofTokens? (exprTokens e) = some e := by
  have hparse := parseType_exprTokens e (3 * (exprTokens e).length + 1) [] h trivial (by omega)
  rw [List.append_nil] at hparse
  rw [ofTokens?, hparse]

/-- A shaped expression is read from its own text. -/
theorem parse_toText_of_isShaped {e : TypeExpr} (h : IsShaped e) : parse e.toText = e := by
  rw [parse, tokens_toText e h, ofTokens?_exprTokens h, Option.getD_some]

/-! ## What the parser reads -/

/-- Every name among the tokens is a word. -/
def AreWords (ts : List Token) : Prop := ∀ text, .word text ∈ ts → IsWord text

theorem AreWords.of_cons {t : Token} (h : AreWords (t :: ts)) : AreWords ts :=
  fun text hmem => h text (List.mem_cons_of_mem _ hmem)

theorem IsDotted.append {name w : String} (h : IsDotted name) (hw : IsWord w) : IsDotted (name ++ "." ++ w) := by
  obtain ⟨first, words, hfirst, hwords, rfl⟩ := h
  refine ⟨first, words ++ [w], hfirst, fun v hv => ?_, by simp [dotted]⟩
  rcases List.mem_append.mp hv with hv | hv
  · exact hwords v hv
  · exact List.mem_singleton.mp hv ▸ hw

theorem IsWord.isDotted {w : String} (h : IsWord w) : IsDotted w := ⟨w, [], h, by simp, rfl⟩

theorem isDotted_of_parseName {name read : String} (hname : IsDotted name) (hts : AreWords ts)
    (h : parseName name ts = some (read, rest)) : IsDotted read ∧ AreWords rest := by
  fun_induction parseName name ts with
  | case1 name w ts ih => exact ih (hname.append (hts w (by simp))) hts.of_cons.of_cons h
  | case2 name w ts ih => exact ih (hts w (by simp)).isDotted hts.of_cons.of_cons h
  | case3 => cases h
  | case4 => cases h
  | case5 => cases h; exact ⟨hname, hts⟩

/-- What the parser takes for marks are marks, one behind the other. -/
theorem of_parseMarks : ∀ (inside : Bool) (ts : List Token) {cs : List Char} {rest : List Token},
    parseMarks inside ts = some (cs, rest) → ts = cs.map .mark ++ rest ∧ isMarks inside cs = true := by
  intro inside ts
  fun_induction parseMarks inside ts with
  | case1 ts ih | case2 ts ih | case3 ts ih | case4 ts ih | case5 ts ih =>
    intro cs rest h
    obtain ⟨⟨ds, left⟩, hmarks, he⟩ := Option.map_eq_some_iff.mp h
    cases he
    obtain ⟨rfl, hds⟩ := ih hmarks
    exact ⟨rfl, by simpa [isMarks] using hds⟩
  | case6 => intro cs rest h; cases h
  | case7 => intro cs rest h; cases h; exact ⟨rfl, rfl⟩

theorem isSuffix_of_parseSuffix {suffix : String} (hts : AreWords ts) (h : parseSuffix ts = some (suffix, rest)) :
    IsSuffix suffix ∧ AreWords rest := by
  obtain ⟨⟨cs, left⟩, hmarks, he⟩ := Option.map_eq_some_iff.mp h
  cases he
  obtain ⟨rfl, hcs⟩ := of_parseMarks false ts hmarks
  exact ⟨by simpa [IsSuffix] using hcs, fun text hmem => hts text (List.mem_append_right _ hmem)⟩

theorem isWord_of_parseElementName {name? : Option String} (hts : AreWords ts)
    (h : parseElementName ts = (name?, rest)) : (∀ name ∈ name?, IsWord name) ∧ AreWords rest := by
  match ts, h with
  | .word w :: ts, h =>
    cases h
    exact ⟨fun name hname => Option.mem_some_iff.mp hname ▸ hts w (by simp), hts.of_cons⟩
  | [], h => cases h; exact ⟨by simp, hts⟩
  | .colons :: ts, h => cases h; exact ⟨by simp, hts⟩
  | .mark c :: ts, h => cases h; exact ⟨by simp, hts⟩

/-! What a reader took, by the reader's own branches, for a run with some fuel. -/

/-- A type is read as elements between parentheses or as a name that may have arguments, with marks behind either. -/
theorem of_parseType {e : TypeExpr} (h : parseType (fuel + 1) ts = some (e, rest)) :
    (∃ inner elements left suffix, ts = .mark '(' :: inner ∧ parseElements fuel inner = some (elements, left) ∧
      2 ≤ elements.length ∧ parseSuffix left = some (suffix, rest) ∧ e = .tuple elements suffix) ∨
    ∃ w behind name left args left' suffix, ts = .word w :: behind ∧ parseName w behind = some (name, left) ∧
      parseArgs fuel left = some (args, left') ∧ parseSuffix left' = some (suffix, rest) ∧
      e = .named name args suffix := by
  rw [parseType.eq_def] at h
  split at h
  next => cases h
  next inner he =>
    cases he
    simp only [Option.bind_eq_bind, Option.bind_eq_some_iff] at h
    obtain ⟨⟨elements, left⟩, helements, h⟩ := h
    split at h
    next => cases h
    next htwo =>
      obtain ⟨⟨suffix, left'⟩, hsuffix, h⟩ := Option.bind_eq_some_iff.mp h
      cases h
      exact .inl ⟨inner, elements, left, suffix, rfl, helements, Nat.not_lt.mp htwo, hsuffix, rfl⟩
  next w behind he =>
    cases he
    simp only [Option.bind_eq_bind, Option.bind_eq_some_iff] at h
    obtain ⟨⟨name, left⟩, hname, ⟨args, left'⟩, hargs, ⟨suffix, left''⟩, hsuffix, h⟩ := h
    cases h
    exact .inr ⟨w, behind, name, left, args, left', suffix, rfl, hname, hargs, hsuffix, rfl⟩
  next => cases h

/-- Arguments are read behind an angle bracket; there are none where none opens. -/
theorem of_parseArgs {args : List TypeExpr} (h : parseArgs (fuel + 1) ts = some (args, rest)) :
    (∃ inner, ts = .mark '<' :: inner ∧ parseArgList fuel inner = some (args, rest)) ∨ ts = rest ∧ args = [] := by
  rw [parseArgs.eq_def] at h
  split at h
  next => cases h
  next inner he =>
    cases he
    exact .inl ⟨inner, rfl, h⟩
  next =>
    cases h
    exact .inr ⟨rfl, rfl⟩

/-- An argument is read, and more of them behind a comma. -/
theorem of_parseArgList {args : List TypeExpr} (h : parseArgList (fuel + 1) ts = some (args, rest)) :
    ∃ arg left more, parseType fuel ts = some (arg, left) ∧ args = arg :: more ∧
      ((∃ inner, left = .mark ',' :: inner ∧ parseArgList fuel inner = some (more, rest)) ∨
        left = .mark '>' :: rest ∧ more = []) := by
  simp only [parseArgList, Option.bind_eq_bind, Option.bind_eq_some_iff] at h
  obtain ⟨⟨arg, left⟩, harg, h⟩ := h
  refine ⟨arg, left, ?_⟩
  split at h
  next inner hleft =>
    obtain ⟨⟨more, left'⟩, hmore, h⟩ := Option.bind_eq_some_iff.mp h
    cases h
    exact ⟨more, harg, rfl, .inl ⟨inner, hleft, hmore⟩⟩
  next hleft =>
    cases h
    exact ⟨[], harg, rfl, .inr ⟨hleft, rfl⟩⟩
  next => cases h

/-- An element is read, which may have a name, and more of them behind a comma. -/
theorem of_parseElements {elements : List (TypeExpr × Option String)}
    (h : parseElements (fuel + 1) ts = some (elements, rest)) :
    ∃ type left more, parseType fuel ts = some (type, left) ∧ elements = (type, (parseElementName left).1) :: more ∧
      ((∃ inner, (parseElementName left).2 = .mark ',' :: inner ∧ parseElements fuel inner = some (more, rest)) ∨
        (parseElementName left).2 = .mark ')' :: rest ∧ more = []) := by
  simp only [parseElements, Option.bind_eq_bind, Option.bind_eq_some_iff] at h
  obtain ⟨⟨type, left⟩, htype, h⟩ := h
  refine ⟨type, left, ?_⟩
  split at h
  next inner hleft =>
    obtain ⟨⟨more, left'⟩, hmore, h⟩ := Option.bind_eq_some_iff.mp h
    cases h
    exact ⟨more, htype, rfl, .inl ⟨inner, hleft, hmore⟩⟩
  next hleft =>
    cases h
    exact ⟨[], htype, rfl, .inr ⟨hleft, rfl⟩⟩
  next => cases h

/-- What the four readers give back for some fuel has a shape. -/
structure ReadsShaped (fuel : Nat) : Prop where
  type : ∀ {ts rest e}, AreWords ts → parseType fuel ts = some (e, rest) → IsShaped e ∧ AreWords rest
  args : ∀ {ts rest as}, AreWords ts → parseArgs fuel ts = some (as, rest) → AllShaped as ∧ AreWords rest
  argList : ∀ {ts rest as}, AreWords ts → parseArgList fuel ts = some (as, rest) → AllShaped as ∧ AreWords rest
  elements : ∀ {ts rest es}, AreWords ts → parseElements fuel ts = some (es, rest) → ElementsShaped es ∧ AreWords rest

theorem readsShaped_zero : ReadsShaped 0 where
  type _ h := by simp [parseType] at h
  args _ h := by simp [parseArgs] at h
  argList _ h := by simp [parseArgList] at h
  elements _ h := by simp [parseElements] at h

theorem ReadsShaped.succ (ih : ReadsShaped fuel) : ReadsShaped (fuel + 1) where
  type {ts rest e} hts h := by
    obtain ⟨inner, elements, left, suffix, rfl, helements, htwo, hsuffix, rfl⟩ |
      ⟨w, behind, name, left, args, left', suffix, rfl, hname, hargs, hsuffix, rfl⟩ := of_parseType h
    · have he := ih.elements hts.of_cons helements
      have hs := isSuffix_of_parseSuffix he.2 hsuffix
      exact ⟨⟨htwo, he.1, hs.1⟩, hs.2⟩
    · have hn := isDotted_of_parseName (hts w (by simp)).isDotted hts.of_cons hname
      have ha := ih.args hn.2 hargs
      have hs := isSuffix_of_parseSuffix ha.2 hsuffix
      exact ⟨⟨hn.1, ha.1, hs.1⟩, hs.2⟩
  args {ts rest as} hts h := by
    obtain ⟨inner, rfl, hinner⟩ | ⟨rfl, rfl⟩ := of_parseArgs h
    · exact ih.argList hts.of_cons hinner
    · exact ⟨trivial, hts⟩
  argList {ts rest as} hts h := by
    obtain ⟨arg, left, more, harg, rfl, hmore⟩ := of_parseArgList h
    have ha := ih.type hts harg
    obtain ⟨inner, rfl, hinner⟩ | ⟨rfl, rfl⟩ := hmore
    · have hm := ih.argList ha.2.of_cons hinner
      exact ⟨⟨ha.1, hm.1⟩, hm.2⟩
    · exact ⟨⟨ha.1, trivial⟩, ha.2.of_cons⟩
  elements {ts rest es} hts h := by
    obtain ⟨type, left, more, htype, rfl, hmore⟩ := of_parseElements h
    have ht := ih.type hts htype
    have hn := isWord_of_parseElementName ht.2 (show parseElementName left = (_, (parseElementName left).2) from rfl)
    obtain ⟨inner, hleft, hinner⟩ | ⟨hleft, rfl⟩ := hmore
    · have hm := ih.elements (hleft ▸ hn.2).of_cons hinner
      exact ⟨⟨⟨ht.1, hn.1⟩, hm.1⟩, hm.2⟩
    · exact ⟨⟨⟨ht.1, hn.1⟩, trivial⟩, (hleft ▸ hn.2).of_cons⟩

theorem readsShaped : ∀ fuel, ReadsShaped fuel
  | 0 => readsShaped_zero
  | fuel + 1 => (readsShaped fuel).succ

/-- What is read from a text has a shape, or is the text without the blanks around it. -/
theorem isShaped_of_parse (text : String) :
    IsShaped (parse text) ∨ ofTokens? (tokens text) = none ∧ parse text = .verbatim (trimBlank text) := by
  cases h : ofTokens? (tokens text) with
  | none => exact .inr ⟨rfl, by rw [parse, h, Option.getD_none]⟩
  | some e =>
    rw [parse, h, Option.getD_some]
    rw [ofTokens?] at h
    split at h
    next t hp =>
      cases h
      exact .inl ((readsShaped _).type (fun _ => isWord_of_mem_tokens) hp).1
    next => cases h

/-- **What was read from some text is read from its own text again.** -/
theorem parse_toText_parse (text : String) : parse (parse text).toText = parse text := by
  rcases isShaped_of_parse text with h | ⟨hnone, h⟩
  · exact parse_toText_of_isShaped h
  · rw [h, toText, parse, tokens_trimBlank, hnone, Option.getD_none, trimBlank_trimBlank]

/-- **Writing what was read and reading it again changes nothing.** The expressions that are read from their own text
are those with a shape, and the texts without blanks around them that are no type. -/
theorem respelling_is_stable :
    (∀ text, parse (parse text).toText = parse text ∧ (parse (parse text).toText).toText = (parse text).toText) ∧
      ∀ e : TypeExpr, parse e.toText = e ↔
        IsShaped e ∨ ∃ kept, e = .verbatim kept ∧ trimBlank kept = kept ∧ ofTokens? (tokens kept) = none := by
  refine ⟨fun text => ⟨parse_toText_parse text, congrArg toText (parse_toText_parse text)⟩, fun e => ⟨fun h => ?_, ?_⟩⟩
  · rcases isShaped_of_parse e.toText with hshaped | ⟨hnone, hkept⟩
    · exact .inl (h ▸ hshaped)
    · exact .inr ⟨trimBlank e.toText, h.symm.trans hkept, trimBlank_trimBlank _, by rw [tokens_trimBlank, hnone]⟩
  · rintro (hshaped | ⟨kept, rfl, htrim, hnone⟩)
    · exact parse_toText_of_isShaped hshaped
    · rw [toText, parse, hnone, Option.getD_none, htrim]

/-- An alias and the blanks are dropped once, and a name keeps its distance from the suffix before it. -/
example : (parse "(A ?@id,a :: B)").toText = "(A? @id, B)" ∧ parse "(A? @id, B)" = parse "(A ?@id,a :: B)" := by
  decide +kernel

end TypeExpr

end ContractStubs
