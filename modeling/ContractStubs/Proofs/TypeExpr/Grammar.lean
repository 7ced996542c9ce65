import ContractStubs.Proofs.TypeExpr.Reading

/-!
# The grammar of type expressions

A type is `T := N ['<' T (',' T)* '>'] S | '(' E (',' E)+ ')' S`, an element of a tuple `E := T [word]`, a name
`N := word (('.' | '::') word)*` and a suffix `S := ('?' | '*' | '[' ','* ']')*`.

* `Lexes` says which tokens a text is made of: blanks stand between them at will, and a word goes on as long as it can.
  The scanner finds these tokens (`lexes_iff`).
* `DerivesType` and its companions are the rules of the grammar, each with the part of the expression that it stands
  for. Whatever follows it, the parser finds what was derived (`parseType_of_derives`), and what it finds is derived
  (`parsesDerived`).
* So a text is read as the expression that is derived from it, and kept verbatim where none is (`parse_iff_derives`).
-/

namespace ContractStubs

namespace TypeExpr

/-! ## Tokens -/

/-- The characters that the grammar is written with. -/
def grammarMarks : List Char := ['.', '<', '>', '(', ')', ',', '?', '*', '[', ']']

/-- The characters spell the tokens, with blanks between one and the next at will. A word is as long as it can be, and
the two colons stand side by side. -/
inductive Lexes : List Char → List Token → Prop
  | nil : Lexes [] []
  | blank {c : Char} {cs : List Char} {ts : List Token} : isBlank c = true → Lexes cs ts → Lexes (c :: cs) ts
  | word {c : Char} {w cs : List Char} {ts : List Token} : isWordStart c = true → w.all isWordPart = true →
      (∀ d ∈ cs.head?, isWordPart d = false) → Lexes cs ts →
      Lexes (c :: w ++ cs) (.word (String.ofList (c :: w)) :: ts)
  | colons {cs : List Char} {ts : List Token} : Lexes cs ts → Lexes (':' :: ':' :: cs) (.colons :: ts)
  | mark {c : Char} {cs : List Char} {ts : List Token} : c ∈ grammarMarks → Lexes cs ts →
      Lexes (c :: cs) (.mark c :: ts)

/-- All marks among the tokens are those of the grammar. -/
def HasGrammarMarks (ts : List Token) : Prop := ∀ c, .mark c ∈ ts → c ∈ grammarMarks

theorem isSoleMark_of_mem_grammarMarks {c : Char} (h : c ∈ grammarMarks) : isSoleMark c = true := by
  have hall : grammarMarks.all isSoleMark = true := by decide +kernel
  exact List.all_eq_true.mp hall c h

/-- A word ends where no part of a word follows, be it a colon or anything else. -/
theorem scan_of_head? {w ds : List Char} (h : ∀ c ∈ ds.head?, isWordPart c = false) :
    scan w ds = wordToken w ++ scan [] ds := by
  cases ds with
  | nil => simp [scan, wordToken]
  | cons c ds =>
    have hpart : isWordPart c = false := h c rfl
    by_cases hc : c = ':' ∧ ds.head? = some ':'
    · obtain ⟨rfl, hds⟩ := hc
      obtain ⟨ds, rfl⟩ := List.head?_eq_some_iff.mp hds
      simp [scan, wordToken]
    · have hne : c = ':' → ds.head? ≠ some ':' := fun hcolon hd => hc ⟨hcolon, hd⟩
      rw [scan_cons hne, scan_cons hne]
      simp only [hpart, Bool.and_false, Bool.false_eq_true, if_false, wordToken, List.nil_append]
      split
      · rfl
      · split <;> rfl

/-- The parts of a word join it. -/
theorem scan_append_of_isWordPart : ∀ {v w ds : List Char}, w ≠ [] → v.all isWordPart = true →
    scan w (v ++ ds) = scan (v.reverse ++ w) ds
  | [], _, _, _, _ => rfl
  | c :: v, w, ds, hw, hv => by
    rw [List.all_cons, Bool.and_eq_true] at hv
    have hgo : (!w.isEmpty && isWordPart c) = true := by simp [hw, hv.1]
    rw [List.cons_append, scan_cons_of_ne_colon (ne_colon_of_isWordPart hv.1), if_pos hgo,
      scan_append_of_isWordPart (by simp) hv.2]
    simp

theorem wordToken_of_reverse {w v : List Char} {c : Char} (h : w.reverse = c :: v) :
    wordToken w = [.word (String.ofList (c :: v))] := by
  cases w with
  | nil => cases h
  | cons d w => rw [wordToken, h]; simp

theorem scan_word {c : Char} {w ds : List Char} (hc : isWordStart c = true) (hw : w.all isWordPart = true)
    (hds : ∀ d ∈ ds.head?, isWordPart d = false) :
    scan [] (c :: w ++ ds) = .word (String.ofList (c :: w)) :: scan [] ds := by
  have hne : c ≠ ':' := by rintro rfl; exact absurd hc (by decide +kernel)
  rw [List.cons_append, scan_cons_of_ne_colon hne]
  simp only [List.isEmpty_nil, Bool.not_true, Bool.false_and, Bool.false_eq_true, if_false, hc, if_true, wordToken,
    List.nil_append]
  rw [scan_append_of_isWordPart (by simp) hw, scan_of_head? hds, wordToken_of_reverse (c := c) (v := w) (by simp)]
  rfl

/-- The scanner finds the tokens that a text is made of. -/
theorem scan_of_lexes {cs : List Char} {ts : List Token} (h : Lexes cs ts) : scan [] cs = ts ∧ HasGrammarMarks ts := by
  induction h with
  | nil => exact ⟨rfl, by simp [HasGrammarMarks]⟩
  | blank hc _ ih => rw [scan_blank hc]; exact ih
  | word hc hw hend _ ih => exact ⟨by rw [scan_word hc hw hend, ih.1], fun d hd => ih.2 d (by simpa using hd)⟩
  | colons _ ih => exact ⟨by simp [scan, wordToken, ih.1], fun d hd => ih.2 d (by simpa using hd)⟩
  | mark hc _ ih =>
    refine ⟨by rw [scan_mark (isSoleMark_of_mem_grammarMarks hc), ih.1], fun d hd => ?_⟩
    rcases List.mem_cons.mp hd with he | hd
    · cases he
      exact hc
    · exact ih.2 d hd

/-- The characters of a word begun, last one first. -/
def IsBegun (w : List Char) : Prop := ∀ c v, w.reverse = c :: v → isWordStart c = true ∧ v.all isWordPart = true

theorem IsBegun.cons {c : Char} {w : List Char} (h : IsBegun w) (hw : w ≠ []) (hc : isWordPart c = true) :
    IsBegun (c :: w) := by
  intro d v hd
  cases hr : w.reverse with
  | nil => exact absurd (List.reverse_eq_nil_iff.mp hr) hw
  | cons e u =>
    rw [List.reverse_cons, hr, List.cons_append, List.cons.injEq] at hd
    obtain ⟨rfl, rfl⟩ := hd
    obtain ⟨hstart, hu⟩ := h e u hr
    exact ⟨hstart, by simp [hu, hc]⟩

/-- A word stands in front of what it cannot go on with. -/
theorem Lexes.behind_word {w ds : List Char} {ts : List Token} (hw : IsBegun w)
    (hds : w ≠ [] → ∀ d ∈ ds.head?, isWordPart d = false) (h : Lexes ds ts) :
    Lexes (w.reverse ++ ds) (wordToken w ++ ts) := by
  cases hr : w.reverse with
  | nil =>
    obtain rfl : w = [] := List.reverse_eq_nil_iff.mp hr
    exact h
  | cons c v =>
    obtain ⟨hc, hv⟩ := hw c v hr
    have hne : w ≠ [] := by rintro rfl; cases hr
    rw [wordToken_of_reverse hr]
    exact .word hc hv (hds hne) h

/-- What the scanner finds spells the text, if it has no marks but those of the grammar. -/
theorem lexes_scan : ∀ w cs, IsBegun w → HasGrammarMarks (scan w cs) → Lexes (w.reverse ++ cs) (scan w cs) := by
  have hsingle : ∀ {c : Char}, isWordStart c = true → IsBegun [c] := fun hc d v hd => by
    cases hd
    exact ⟨hc, rfl⟩
  have hnil : IsBegun [] := fun c v h => by cases h
  have hcolon : isWordPart ':' = false := by decide +kernel
  intro w cs
  fun_induction scan w cs with
  | case1 w => intro hw _; simpa using Lexes.nil.behind_word hw (by simp)
  | case2 w cs ih =>
    intro hw hmarks
    refine Lexes.behind_word hw (fun _ d hd => ?_) (.colons (ih hnil fun d hd => hmarks d (by simp [hd])))
    cases hd
    exact hcolon
  | case3 w c cs _ hgo ih =>
    intro hw hmarks
    obtain ⟨hne, hpart⟩ := Bool.and_eq_true _ _ ▸ hgo
    have hbegun : IsBegun (c :: w) := hw.cons (by simpa using hne) hpart
    simpa using ih hbegun hmarks
  | case4 w c cs _ hgo hstart ih =>
    intro hw hmarks
    have hrest := ih (hsingle hstart) fun d hd => hmarks d (by simp [hd])
    refine Lexes.behind_word hw (fun hne d hd => ?_) hrest
    cases hd
    simpa [hne] using hgo
  | case5 w c cs _ hgo _ hblank ih =>
    intro hw hmarks
    refine Lexes.behind_word hw (fun hne d hd => ?_) (.blank hblank (ih hnil fun d hd => hmarks d (by simp [hd])))
    cases hd
    exact isWordPart_of_isBlank hblank
  | case6 w c cs _ hgo _ _ ih =>
    intro hw hmarks
    refine Lexes.behind_word hw (fun hne d hd => ?_)
      (.mark (hmarks c (by simp)) (ih hnil fun d hd => hmarks d (by simp [hd])))
    cases hd
    simpa [hne] using hgo

/-- **The tokens of a text are the ones that spell it, if they have no marks but those of the grammar.** -/
theorem lexes_iff {text : String} {ts : List Token} :
    Lexes text.toList ts ↔ tokens text = ts ∧ HasGrammarMarks ts := by
  constructor
  · exact scan_of_lexes
  · rintro ⟨rfl, hmarks⟩
    exact lexes_scan [] text.toList (fun c v h => by cases h) hmarks

/-! ## Rules -/

/-- `word (('.' | '::') word)*`, standing for the words behind the last `::`. -/
inductive DerivesName : List Token → String → Prop
  | word (w : String) : DerivesName [.word w] w
  | dot {ts : List Token} {name : String} (w : String) : DerivesName ts name →
      DerivesName (ts ++ [.mark '.', .word w]) (name ++ "." ++ w)
  | colons {ts : List Token} {name : String} (w : String) : DerivesName ts name →
      DerivesName (ts ++ [.colons, .word w]) w

/-- `('?' | '*' | '[' ','* ']')*`, standing for its marks without the blanks between them. -/
inductive DerivesMarks : List Token → List Char → Prop
  | nil : DerivesMarks [] []
  | nullable {ts : List Token} {cs : List Char} : DerivesMarks ts cs → DerivesMarks (.mark '?' :: ts) ('?' :: cs)
  | pointer {ts : List Token} {cs : List Char} : DerivesMarks ts cs → DerivesMarks (.mark '*' :: ts) ('*' :: cs)
  | array {ts : List Token} {cs : List Char} (commas : Nat) : DerivesMarks ts cs →
      DerivesMarks (.mark '[' :: (List.replicate commas (.mark ',') ++ .mark ']' :: ts))
        ('[' :: (List.replicate commas ',' ++ ']' :: cs))

mutual

/-- `N ['<' T (',' T)* '>'] S | '(' E (',' E)+ ')' S`. -/
inductive DerivesType : List Token → TypeExpr → Prop
  | plain {ns ss : List Token} {name : String} {marks : List Char} : DerivesName ns name → DerivesMarks ss marks →
      DerivesType (ns ++ ss) (.named name [] (String.ofList marks))
  | generic {ns as ss : List Token} {name : String} {args : List TypeExpr} {marks : List Char} : DerivesName ns name →
      DerivesArgs as args → DerivesMarks ss marks →
      DerivesType (ns ++ .mark '<' :: (as ++ .mark '>' :: ss)) (.named name args (String.ofList marks))
  | tuple {es ss : List Token} {elements : List (TypeExpr × Option String)} {marks : List Char} :
      DerivesElements es elements → 2 ≤ elements.length → DerivesMarks ss marks →
      DerivesType (.mark '(' :: (es ++ .mark ')' :: ss)) (.tuple elements (String.ofList marks))

/-- `T (',' T)*`. -/
inductive DerivesArgs : List Token → List TypeExpr → Prop
  | one {ts : List Token} {e : TypeExpr} : DerivesType ts e → DerivesArgs ts [e]
  | cons {ts us : List Token} {e : TypeExpr} {es : List TypeExpr} : DerivesType ts e → DerivesArgs us es →
      DerivesArgs (ts ++ .mark ',' :: us) (e :: es)

/-- `T [word]`. -/
inductive DerivesElement : List Token → TypeExpr × Option String → Prop
  | unnamed {ts : List Token} {e : TypeExpr} : DerivesType ts e → DerivesElement ts (e, none)
  | named {ts : List Token} {e : TypeExpr} (w : String) : DerivesType ts e →
      DerivesElement (ts ++ [.word w]) (e, some w)

/-- `E (',' E)*`. -/
inductive DerivesElements : List Token → List (TypeExpr × Option String) → Prop
  | one {ts : List Token} {e : TypeExpr × Option String} : DerivesElement ts e → DerivesElements ts [e]
  | cons {ts us : List Token} {e : TypeExpr × Option String} {es : List (TypeExpr × Option String)} :
      DerivesElement ts e → DerivesElements us es → DerivesElements (ts ++ .mark ',' :: us) (e :: es)

end

/-- The expression is derived from the text. -/
def Derives (text : String) (e : TypeExpr) : Prop := ∃ ts, Lexes text.toList ts ∧ DerivesType ts e

variable {ts rest : List Token} {fuel : Nat} {e : TypeExpr}

/-! ## Names and suffixes -/

/-- The parser goes on behind a derived name with that name. -/
theorem parseName_of_derives {name : String} (h : DerivesName ts name) :
    ∃ w more, ts = .word w :: more ∧ ∀ rest, parseName w (more ++ rest) = parseName name rest := by
  induction h with
  | word w => exact ⟨w, [], rfl, fun _ => rfl⟩
  | dot w _ ih =>
    obtain ⟨first, more, rfl, hparse⟩ := ih
    exact ⟨first, more ++ [.mark '.', .word w], rfl, fun rest => by simp [hparse, parseName]⟩
  | colons w _ ih =>
    obtain ⟨first, more, rfl, hparse⟩ := ih
    exact ⟨first, more ++ [.colons, .word w], rfl, fun rest => by simp [hparse, parseName]⟩

/-- What the parser takes for the rest of a name goes on with it. -/
theorem derivesName_of_parseName {name read : String} {front : List Token} (hfront : DerivesName front name)
    (h : parseName name ts = some (read, rest)) : ∃ more, ts = more ++ rest ∧ DerivesName (front ++ more) read := by
  fun_induction parseName name ts generalizing front with
  | case1 name w ts ih =>
    obtain ⟨more, rfl, hmore⟩ := ih (hfront.dot w) h
    exact ⟨.mark '.' :: .word w :: more, rfl, by simpa using hmore⟩
  | case2 name w ts ih =>
    obtain ⟨more, rfl, hmore⟩ := ih (hfront.colons w) h
    exact ⟨.colons :: .word w :: more, rfl, by simpa using hmore⟩
  | case3 => cases h
  | case4 => cases h
  | case5 => cases h; exact ⟨[], rfl, by simpa using hfront⟩

theorem isMarks_replicate_comma (cs : List Char) : ∀ commas : Nat,
    isMarks true (List.replicate commas ',' ++ ']' :: cs) = isMarks false cs
  | 0 => rfl
  | commas + 1 => by rw [List.replicate_succ, List.cons_append, isMarks, isMarks_replicate_comma cs commas]

/-- A suffix is derived from its own marks and from nothing else. -/
theorem derivesMarks_iff {marks : List Char} :
    DerivesMarks ts marks ↔ ts = marks.map .mark ∧ isMarks false marks = true := by
  constructor
  · intro h
    induction h with
    | nil => exact ⟨rfl, rfl⟩
    | nullable _ ih => exact ⟨by simp [ih.1], ih.2⟩
    | pointer _ ih => exact ⟨by simp [ih.1], ih.2⟩
    | array commas _ ih => exact ⟨by simp [ih.1], by rw [isMarks, isMarks_replicate_comma, ih.2]⟩
  · rintro ⟨rfl, hmarks⟩
    -- An open bracket is closed behind some commas, and the marks go on behind it.
    suffices h : ∀ inside cs, isMarks inside cs = true → if inside then
        ∃ commas ds, cs = List.replicate commas ',' ++ ']' :: ds ∧ DerivesMarks (ds.map .mark) ds
        else DerivesMarks (cs.map .mark) cs from h false marks hmarks
    intro inside cs
    fun_induction isMarks inside cs with
    | case1 => exact fun _ => .nil
    | case2 cs ih => exact fun h => .nullable (ih h)
    | case3 cs ih => exact fun h => .pointer (ih h)
    | case4 cs ih =>
      intro h
      obtain ⟨commas, ds, rfl, hds⟩ := ih h
      simpa using DerivesMarks.array commas hds
    | case5 cs ih =>
      intro h
      obtain ⟨commas, ds, rfl, hds⟩ := ih h
      exact ⟨commas + 1, ds, rfl, hds⟩
    | case6 cs ih => exact fun h => ⟨0, cs, rfl, ih h⟩
    | case7 => exact fun h => by cases h

theorem parseSuffix_of_derives {marks : List Char} (h : DerivesMarks ts marks) (hrest : Follows rest) :
    parseSuffix (ts ++ rest) = some (String.ofList marks, rest) := by
  obtain ⟨rfl, hmarks⟩ := derivesMarks_iff.mp h
  rw [parseSuffix, parseMarks_of_isMarks hrest false marks hmarks]
  rfl

theorem derivesMarks_of_parseSuffix {suffix : String} (h : parseSuffix ts = some (suffix, rest)) :
    ∃ front marks, ts = front ++ rest ∧ DerivesMarks front marks ∧ suffix = String.ofList marks := by
  obtain ⟨⟨marks, left⟩, hmarks, he⟩ := Option.map_eq_some_iff.mp h
  cases he
  obtain ⟨rfl, hshape⟩ := of_parseMarks false ts hmarks
  exact ⟨marks.map .mark, marks, rfl, derivesMarks_iff.mpr ⟨rfl, hshape⟩, rfl⟩

/-- A suffix neither goes on with a name nor opens type arguments. -/
theorem stops_of_derivesMarks {marks : List Char} (h : DerivesMarks ts marks) (hrest : Follows rest) :
    EndsName (ts ++ rest) ∧ ∀ t ∈ (ts ++ rest).head?, t ≠ .mark '<' := by
  obtain ⟨rfl, hmarks⟩ := derivesMarks_iff.mp h
  have hsuffix : IsSuffix (String.ofList marks) := by simpa [IsSuffix] using hmarks
  have hstop := ne_of_mem_head?_suffixTokens hsuffix hrest
  rw [suffixTokens, String.toList_ofList] at hstop
  exact ⟨fun t ht => (hstop t ht).1, fun t ht => (hstop t ht).2⟩

/-! ## What is derived is found -/

/-- The step of the parser behind a derived name, given the type arguments behind it and the suffix behind these. -/
theorem parseType_of_derivesName {ns left : List Token} {name suffix : String} {args : List TypeExpr}
    (hname : DerivesName ns name) (hends : EndsName ts) (hargs : parseArgs fuel ts = some (args, left))
    (hsuffix : parseSuffix left = some (suffix, rest)) :
    parseType (fuel + 1) (ns ++ ts) = some (.named name args suffix, rest) := by
  obtain ⟨w, more, rfl, hparse⟩ := parseName_of_derives hname
  simp only [List.cons_append, parseType, hparse, parseName_of_endsName hends, Option.bind_eq_bind,
    Option.bind_some, hargs, hsuffix]

mutual

/-- **The parser finds what is derived, whatever follows it.** -/
theorem parseType_of_derives {ts : List Token} {e : TypeExpr} (h : DerivesType ts e) (rest : List Token)
    (hrest : Follows rest) (fuel : Nat) (hfuel : 3 * ts.length ≤ fuel) :
    parseType fuel (ts ++ rest) = some (e, rest) := by
  cases h with
  | @plain ns ss _ _ hname hmarks =>
    obtain ⟨w, more, rfl, -⟩ := parseName_of_derives hname
    obtain ⟨fuel, rfl⟩ := Nat.exists_eq_add_of_le' (show 1 ≤ fuel by simp at hfuel; omega)
    obtain ⟨hends, hopen⟩ := stops_of_derivesMarks hmarks hrest
    have hargs := parseArgs_of_ne hopen (show 0 < fuel by simp at hfuel; omega)
    rw [List.append_assoc]
    exact parseType_of_derivesName hname hends hargs (parseSuffix_of_derives hmarks hrest)
  | @generic ns as ss _ args _ hname hargs hmarks =>
    obtain ⟨w, more, rfl, -⟩ := parseName_of_derives hname
    obtain ⟨fuel, rfl⟩ := Nat.exists_eq_add_of_le' (show 2 ≤ fuel by simp at hfuel; omega)
    have hlist : parseArgs (fuel + 1) (.mark '<' :: (as ++ .mark '>' :: ss) ++ rest) = some (args, ss ++ rest) := by
      have hread := parseArgList_of_derives hargs (ss ++ rest) fuel (by simp at hfuel; omega)
      simpa [parseArgs] using hread
    have hends : EndsName (.mark '<' :: (as ++ .mark '>' :: ss) ++ rest) := by simp [EndsName]
    rw [List.append_assoc]
    exact parseType_of_derivesName hname hends hlist (parseSuffix_of_derives hmarks hrest)
  | @tuple es ss elements _ helements htwo hmarks =>
    obtain ⟨fuel, rfl⟩ := Nat.exists_eq_add_of_le' (show 1 ≤ fuel by simp at hfuel; omega)
    have hread := parseElements_of_derives helements (ss ++ rest) fuel (by simp at hfuel; omega)
    have htokens : .mark '(' :: (es ++ .mark ')' :: ss) ++ rest = .mark '(' :: (es ++ .mark ')' :: (ss ++ rest)) := by
      simp
    simp only [htokens, parseType, hread, Option.bind_eq_bind, Option.bind_some, if_neg (Nat.not_lt.mpr htwo),
      parseSuffix_of_derives hmarks hrest]
termination_by (fuel, 0)

theorem parseArgList_of_derives {ts : List Token} {args : List TypeExpr} (h : DerivesArgs ts args) (rest : List Token)
    (fuel : Nat) (hfuel : 3 * ts.length + 1 ≤ fuel) :
    parseArgList fuel (ts ++ .mark '>' :: rest) = some (args, rest) := by
  obtain ⟨fuel, rfl⟩ := Nat.exists_eq_add_of_le' (show 1 ≤ fuel by omega)
  cases h with
  | one harg =>
    have hread := parseType_of_derives harg (.mark '>' :: rest) (.inr (.inl rfl)) fuel (by omega)
    simp [parseArgList, hread]
  | @cons ts us _ _ harg hargs =>
    rw [List.length_append, List.length_cons] at hfuel
    have hread := parseType_of_derives harg (.mark ',' :: (us ++ .mark '>' :: rest)) (.inl rfl) fuel (by omega)
    have hmore := parseArgList_of_derives hargs rest fuel (by omega)
    simp [parseArgList, hread, hmore]
termination_by (fuel, 0)

theorem parseElement_of_derives {ts : List Token} {e : TypeExpr × Option String} (h : DerivesElement ts e)
    (rest : List Token) (c : Char) (hc : c = ',' ∨ c = '>' ∨ c = ')') (fuel : Nat) (hfuel : 3 * ts.length ≤ fuel) :
    parseType fuel (ts ++ .mark c :: rest) = some (e.1, e.2.toList.map .word ++ .mark c :: rest) := by
  cases h with
  | unnamed htype => exact parseType_of_derives htype (.mark c :: rest) hc fuel hfuel
  | named w htype =>
    rw [List.append_assoc]
    refine parseType_of_derives htype (.word w :: .mark c :: rest) trivial fuel ?_
    rw [List.length_append] at hfuel
    omega
termination_by (fuel, 1)

theorem parseElements_of_derives {ts : List Token} {elements : List (TypeExpr × Option String)}
    (h : DerivesElements ts elements) (rest : List Token) (fuel : Nat) (hfuel : 3 * ts.length + 1 ≤ fuel) :
    parseElements fuel (ts ++ .mark ')' :: rest) = some (elements, rest) := by
  obtain ⟨fuel, rfl⟩ := Nat.exists_eq_add_of_le' (show 1 ≤ fuel by omega)
  cases h with
  | one helement =>
    have hread := parseElement_of_derives helement rest ')' (.inr (.inr rfl)) fuel (by omega)
    simp [parseElements, hread, parseElementName_mark]
  | @cons ts us _ _ helement helements =>
    rw [List.length_append, List.length_cons] at hfuel
    have hread := parseElement_of_derives helement (us ++ .mark ')' :: rest) ',' (.inl rfl) fuel (by omega)
    have hmore := parseElements_of_derives helements rest fuel (by omega)
    simp [parseElements, hread, hmore, parseElementName_mark]
termination_by (fuel, 0)

end

/-! ## What is found is derived -/

theorem derivesElement_of_parse {front : List Token} (h : DerivesType front e) (ts : List Token) :
    ∃ more, ts = more ++ (parseElementName ts).2 ∧ DerivesElement (front ++ more) (e, (parseElementName ts).1) := by
  match ts with
  | .word w :: ts => exact ⟨[.word w], rfl, .named w h⟩
  | [] | .colons :: ts | .mark c :: ts => exact ⟨[], rfl, by simpa [parseElementName] using DerivesElement.unnamed h⟩

/-- What the four readers find for some fuel is derived from the tokens that they take. -/
structure ParsesDerived (fuel : Nat) : Prop where
  type : ∀ {ts rest e}, parseType fuel ts = some (e, rest) → ∃ front, ts = front ++ rest ∧ DerivesType front e
  args : ∀ {ts rest as}, parseArgs fuel ts = some (as, rest) →
    ts = rest ∧ as = [] ∨ ∃ front, ts = .mark '<' :: (front ++ .mark '>' :: rest) ∧ DerivesArgs front as
  argList : ∀ {ts rest as}, parseArgList fuel ts = some (as, rest) →
    ∃ front, ts = front ++ .mark '>' :: rest ∧ DerivesArgs front as
  elements : ∀ {ts rest es}, parseElements fuel ts = some (es, rest) →
    ∃ front, ts = front ++ .mark ')' :: rest ∧ DerivesElements front es

theorem parsesDerived_zero : ParsesDerived 0 where
  type h := by simp [parseType] at h
  args h := by simp [parseArgs] at h
  argList h := by simp [parseArgList] at h
  elements h := by simp [parseElements] at h

theorem ParsesDerived.succ (ih : ParsesDerived fuel) : ParsesDerived (fuel + 1) where
  type {ts rest e} h := by
    obtain ⟨inner, elements, left, suffix, rfl, helements, htwo, hsuffix, rfl⟩ |
      ⟨w, behind, name, left, args, left', suffix, rfl, hname, hargs, hsuffix, rfl⟩ := of_parseType h
    · obtain ⟨front, rfl, hfront⟩ := ih.elements helements
      obtain ⟨ss, marks, rfl, hmarks, rfl⟩ := derivesMarks_of_parseSuffix hsuffix
      exact ⟨_, by simp, .tuple hfront htwo hmarks⟩
    · obtain ⟨more, rfl, hmore⟩ := derivesName_of_parseName (.word w) hname
      obtain ⟨ss, marks, rfl, hmarks, rfl⟩ := derivesMarks_of_parseSuffix hsuffix
      obtain ⟨rfl, rfl⟩ | ⟨front, rfl, hfront⟩ := ih.args hargs
      · exact ⟨_, by simp, .plain hmore hmarks⟩
      · exact ⟨_, by simp, .generic hmore hfront hmarks⟩
  args {ts rest as} h := by
    obtain ⟨inner, rfl, hinner⟩ | hnone := of_parseArgs h
    · obtain ⟨front, rfl, hfront⟩ := ih.argList hinner
      exact .inr ⟨front, rfl, hfront⟩
    · exact .inl hnone
  argList {ts rest as} h := by
    obtain ⟨arg, left, args, harg, rfl, hargs⟩ := of_parseArgList h
    obtain ⟨front, rfl, hfront⟩ := ih.type harg
    obtain ⟨inner, rfl, hinner⟩ | ⟨rfl, rfl⟩ := hargs
    · obtain ⟨more, rfl, hmore⟩ := ih.argList hinner
      exact ⟨_, by simp, .cons hfront hmore⟩
    · exact ⟨front, rfl, .one hfront⟩
  elements {ts rest es} h := by
    obtain ⟨type, left, elements, htype, rfl, helements⟩ := of_parseElements h
    obtain ⟨front, rfl, hfront⟩ := ih.type htype
    obtain ⟨word, hword, helement⟩ := derivesElement_of_parse hfront left
    obtain ⟨inner, hleft, hinner⟩ | ⟨hleft, rfl⟩ := helements
    · obtain ⟨more, rfl, hmore⟩ := ih.elements hinner
      exact ⟨_, by rw [hword, hleft]; simp, .cons helement hmore⟩
    · exact ⟨front ++ word, by rw [hword, hleft]; simp, .one helement⟩

theorem parsesDerived : ∀ fuel, ParsesDerived fuel
  | 0 => parsesDerived_zero
  | fuel + 1 => (parsesDerived fuel).succ

theorem ofTokens?_eq_some_iff : ofTokens? ts = some e ↔ DerivesType ts e := by
  constructor
  · intro h
    rw [ofTokens?] at h
    split at h
    next t hparse =>
      cases h
      obtain ⟨front, rfl, hfront⟩ := (parsesDerived _).type hparse
      simpa using hfront
    next => cases h
  · intro h
    have hparse := parseType_of_derives h [] trivial (3 * ts.length + 1) (by omega)
    rw [List.append_nil] at hparse
    rw [ofTokens?, hparse]

/-! ## Texts -/

theorem HasGrammarMarks.append {us : List Token} (hts : HasGrammarMarks ts) (hus : HasGrammarMarks us) :
    HasGrammarMarks (ts ++ us) := fun c hc => (List.mem_append.mp hc).elim (hts c) (hus c)

theorem HasGrammarMarks.mark {c : Char} (hc : c ∈ grammarMarks) (hts : HasGrammarMarks ts) :
    HasGrammarMarks (.mark c :: ts) := fun d hd => by
  rcases List.mem_cons.mp hd with he | hd
  · cases he
    exact hc
  · exact hts d hd

theorem hasGrammarMarks_word (w : String) : HasGrammarMarks [.word w] := fun c hc => by cases hc; contradiction

theorem hasGrammarMarks_of_derivesName {name : String} (h : DerivesName ts name) : HasGrammarMarks ts := by
  induction h with
  | word w => exact hasGrammarMarks_word w
  | dot w _ ih => exact ih.append (.mark (by decide) (hasGrammarMarks_word w))
  | colons w _ ih => exact ih.append fun c hc => by simp at hc

theorem hasGrammarMarks_of_derivesMarks {marks : List Char} (h : DerivesMarks ts marks) : HasGrammarMarks ts := by
  obtain ⟨rfl, hmarks⟩ := derivesMarks_iff.mp h
  intro c hc
  have hmem := mem_suffixChars_of_isMarks false marks hmarks c (by simpa using hc)
  have hall : suffixChars.all (· ∈ grammarMarks) = true := by decide
  exact of_decide_eq_true (List.all_eq_true.mp hall c hmem)

mutual

/-- What is derived has no marks but those of the grammar. -/
theorem hasGrammarMarks_of_derivesType : ∀ {ts : List Token} {e : TypeExpr}, DerivesType ts e → HasGrammarMarks ts
  | _, _, .plain hname hmarks =>
    (hasGrammarMarks_of_derivesName hname).append (hasGrammarMarks_of_derivesMarks hmarks)
  | _, _, .generic hname hargs hmarks =>
    (hasGrammarMarks_of_derivesName hname).append (.mark (by decide)
      ((hasGrammarMarks_of_derivesArgs hargs).append (.mark (by decide) (hasGrammarMarks_of_derivesMarks hmarks))))
  | _, _, .tuple helements _ hmarks =>
    .mark (by decide) ((hasGrammarMarks_of_derivesElements helements).append
      (.mark (by decide) (hasGrammarMarks_of_derivesMarks hmarks)))

theorem hasGrammarMarks_of_derivesArgs : ∀ {ts : List Token} {es : List TypeExpr}, DerivesArgs ts es →
    HasGrammarMarks ts
  | _, _, .one harg => hasGrammarMarks_of_derivesType harg
  | _, _, .cons harg hargs =>
    (hasGrammarMarks_of_derivesType harg).append (.mark (by decide) (hasGrammarMarks_of_derivesArgs hargs))

theorem hasGrammarMarks_of_derivesElement : ∀ {ts : List Token} {e : TypeExpr × Option String}, DerivesElement ts e →
    HasGrammarMarks ts
  | _, _, .unnamed htype => hasGrammarMarks_of_derivesType htype
  | _, _, .named w htype => (hasGrammarMarks_of_derivesType htype).append (hasGrammarMarks_word w)

theorem hasGrammarMarks_of_derivesElements : ∀ {ts : List Token} {es : List (TypeExpr × Option String)},
    DerivesElements ts es → HasGrammarMarks ts
  | _, _, .one helement => hasGrammarMarks_of_derivesElement helement
  | _, _, .cons helement helements =>
    (hasGrammarMarks_of_derivesElement helement).append
      (.mark (by decide) (hasGrammarMarks_of_derivesElements helements))

end

theorem ne_verbatim_of_derivesType {kept : String} (h : DerivesType ts e) : e ≠ .verbatim kept := by
  cases h <;> simp

theorem derives_iff_ofTokens? {text : String} : Derives text e ↔ ofTokens? (tokens text) = some e := by
  rw [ofTokens?_eq_some_iff]
  constructor
  · rintro ⟨ts, hlexes, htype⟩
    rwa [(lexes_iff.mp hlexes).1]
  · exact fun h => ⟨tokens text, lexes_iff.mpr ⟨rfl, hasGrammarMarks_of_derivesType h⟩, h⟩

/-- **A text is read as the expression that is derived from it**, of which there is at most one, and it is kept without
the blanks around it where none is. -/
theorem parse_iff_derives (text : String) :
    (∀ e, Derives text e ↔ parse text = e ∧ ∀ kept, e ≠ .verbatim kept) ∧
      ((∀ e, ¬Derives text e) ↔ parse text = .verbatim (trimBlank text)) := by
  simp only [derives_iff_ofTokens?]
  cases h : ofTokens? (tokens text) with
  | none =>
    have hparse : parse text = .verbatim (trimBlank text) := by rw [parse, h, Option.getD_none]
    refine ⟨fun e => ⟨fun he => absurd he (by simp), ?_⟩, fun _ => hparse, fun _ e => by simp⟩
    rintro ⟨rfl, hkept⟩
    exact absurd hparse (hkept _)
  | some t =>
    have hparse : parse text = t := by rw [parse, h, Option.getD_some]
    have hkept : ∀ kept, t ≠ .verbatim kept := fun kept => ne_verbatim_of_derivesType (ofTokens?_eq_some_iff.mp h)
    refine ⟨fun e => ⟨?_, ?_⟩, fun hnone => absurd rfl (hnone t), fun hverbatim => ?_⟩
    · rintro ⟨⟩
      exact ⟨hparse, hkept⟩
    · rintro ⟨he, -⟩
      rw [← he, hparse]
    · exact absurd (hparse.symm.trans hverbatim) (hkept _)

end TypeExpr

end ContractStubs
