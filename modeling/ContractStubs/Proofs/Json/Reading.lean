import ContractStubs.Json.Reader
import ContractStubs.Proofs.Json.Writing

/-!
# Documents are read as they were written

The form with lines of a document whose numbers are whole ones of 64 bits (`Json.IsWritable`) is read as that document
(`read_toPretty`). Each piece is read off the front of a text, whatever follows it:

* a text up to its closing quotation mark (`readText_textLiteral`);
* a number up to a character that ends it (`readNumber_toDigits`, with `endsNumber`);
* a document where it was written (`IsWritable.isReadBack`), and behind it the items or fields that are left
  (`readItems_pretty`, `readFields_pretty`).
-/

namespace ContractStubs

namespace Json

/-! ## Texts -/

/-- The reader takes the escape of a character for that character. -/
def isReadable (c : Char) : Bool :=
  match escapedChar c with
  | ['\\', l] => l != 'u' && shortEscape? l == some c
  | ['\\', 'u', a, b, d, e] => (hexFour? a b d e).map TextUnit.ofCode == some (.char c)
  | _ => false

theorem isReadable_of_mem_escapedChars {c : Char} (hc : c ∈ escapedChars) : isReadable c = true := by
  have hall : escapedChars.all isReadable = true := by decide +kernel
  exact List.all_eq_true.mp hall c hc

theorem readUnits_escapedChar_append (c : Char) (cs : List Char) :
    readUnits (escapedChar c ++ cs) = (readUnits cs).map fun found => (.char c :: found.1, found.2) := by
  by_cases hc : c ∈ escapedChars
  · have hback := isReadable_of_mem_escapedChars hc
    rw [isReadable] at hback
    split at hback
    next l hl =>
      simp only [Bool.and_eq_true, bne_iff_ne, beq_iff_eq] at hback
      rw [hl, List.cons_append, List.cons_append, List.nil_append, readUnits.eq_4, hback.2]
      · cases readUnits cs <;> rfl
      · intro a b d e cs' hu
        exact absurd hu hback.1
    next a b d e hl =>
      obtain ⟨n, hn, hcode⟩ := Option.map_eq_some_iff.mp (eq_of_beq hback)
      rw [hl, List.cons_append, List.cons_append, List.cons_append, List.cons_append, List.cons_append,
        List.cons_append, List.nil_append, readUnits.eq_3, hn, ← hcode]
      cases readUnits cs <;> rfl
    next => cases hback
  · have hquote : c ≠ '\"' := fun h => hc (h ▸ by decide)
    have hslash : c ≠ '\\' := fun h => hc (h ▸ by decide)
    have hlow := not_lt_of_not_mem_escapedChars hc
    rw [escapedChar_of_not_mem hc, List.singleton_append, readUnits.eq_5]
    · simp only [hlow, hslash, decide_false, Bool.or_self, Bool.false_eq_true, if_false]
      cases readUnits cs <;> rfl
    · exact hquote
    · intro _ _ _ _ _ h
      exact absurd h hslash
    · intro _ _ h
      exact absurd h hslash

theorem joinUnits_chars : ∀ cs : List Char, joinUnits (cs.map .char) = some cs
  | [] => rfl
  | c :: cs => by rw [List.map_cons, joinUnits, joinUnits_chars cs]; rfl

theorem readUnits_escaped : ∀ (cs r : List Char),
    readUnits (cs.flatMap escapedChar ++ '\"' :: r) = some (cs.map .char, r)
  | [], _ => rfl
  | c :: cs, r => by
    rw [List.flatMap_cons, List.append_assoc, readUnits_escapedChar_append, readUnits_escaped cs r]
    rfl

/-- **A text that was written is read back.** -/
theorem readText_textLiteral (text : String) (r : List Char) : ∃ cs, (textLiteral text).toList ++ r = '\"' :: cs ∧
    readText cs = some (some text, r) := by
  refine ⟨text.toList.flatMap escapedChar ++ '\"' :: r, by simp [textLiteral], ?_⟩
  simp [readText, readUnits_escaped, joinUnits_chars]

/-! ## Numbers -/

/-- What follows cannot belong to a whole number. -/
def endsNumber : List Char → Bool
  | [] => true
  | c :: _ => !(isDigit c || c == '.' || c == 'e' || c == 'E')

theorem isDigit_of_mem_toDigits {n : Nat} : ∀ c ∈ Nat.toDigits 10 n, isDigit c = true := by
  intro c hc
  have := Nat.isDigit_of_mem_toDigits (by decide) (by decide) hc
  simpa [isDigit, Char.isDigit, Char.le_def] using this

theorem digitValue_digitChar {n : Nat} (h : n < 10) : digitValue n.digitChar = n := by
  rw [digitValue, Nat.toNat_digitChar_of_lt_ten h]
  simp

theorem takeWord_toDigits {n : Nat} (hn : n ≤ maxWord) (cs : List Char) :
    takeWord 0 (Nat.toDigits 10 n ++ cs) = takeWord n cs := by
  induction n using Nat.strongRecOn generalizing cs with
  | ind n ih =>
    rw [Nat.toDigits_eq_if (by decide)]
    split
    next hlt =>
      rw [List.singleton_append, takeWord, digitValue_digitChar hlt, if_neg (by omega)]
      simp
    next hge =>
      have hlast : n % 10 < 10 := Nat.mod_lt _ (by decide)
      rw [List.append_assoc, List.singleton_append, ih (n / 10) (by omega) (by omega), takeWord,
        digitValue_digitChar hlast, if_neg (by omega), Nat.div_add_mod' n 10]

/-- A number is written without a zero in front. -/
theorem head?_toDigits_ne {n : Nat} (hn : 0 < n) : (Nat.toDigits 10 n).head? ≠ some '0' := by
  induction n using Nat.strongRecOn with
  | ind n ih =>
    rw [Nat.toDigits_eq_if (by decide)]
    split
    next hlt =>
      intro h
      have hzero : n = 0 := by rw [← digitValue_digitChar hlt, Option.some.inj h]; rfl
      omega
    next hge =>
      rw [List.head?_append_of_ne_nil _ Nat.toDigits_ne_nil]
      exact ih (n / 10) (by omega) (by omega)

theorem toDigits_ne_zero_cons_cons (n : Nat) (c : Char) (cs : List Char) : Nat.toDigits 10 n ≠ '0' :: c :: cs := by
  intro h
  by_cases hn : 0 < n
  · exact head?_toDigits_ne hn (by rw [h]; rfl)
  · obtain rfl : n = 0 := by omega
    cases h

theorem endsNumber_cons {c : Char} {r : List Char} :
    endsNumber (c :: r) = true ↔ isDigit c = false ∧ c ≠ '.' ∧ c ≠ 'e' ∧ c ≠ 'E' := by
  simp [endsNumber, and_assoc]

theorem span_toDigits (n : Nat) {r : List Char} (hr : endsNumber r = true) :
    (Nat.toDigits 10 n ++ r).takeWhile isDigit = Nat.toDigits 10 n ∧
      (Nat.toDigits 10 n ++ r).dropWhile isDigit = r := by
  rw [List.takeWhile_append_of_pos isDigit_of_mem_toDigits, List.dropWhile_append_of_pos isDigit_of_mem_toDigits]
  cases r with
  | nil => simp
  | cons c r =>
    have hc := (endsNumber_cons.mp hr).1
    simp [hc]

theorem readNumber_toDigits (negative : Bool) {n : Nat} (hn : n ≤ maxWord) {r : List Char}
    (hr : endsNumber r = true) :
    readNumber negative (Nat.toDigits 10 n ++ r) = (ofWhole negative n, some r) := by
  have hword : takeWord 0 (Nat.toDigits 10 n) = (n, []) := by
    simpa [takeWord] using takeWord_toDigits hn []
  obtain ⟨htake, hdrop⟩ := span_toDigits n hr
  rw [readNumber, htake, hdrop]
  dsimp only
  split
  next h => exact absurd h Nat.toDigits_ne_nil
  next c cs h => exact absurd h (toDigits_ne_zero_cons_cons n c cs)
  next =>
    rw [hword]
    cases r with
    | nil => simp [takeWord]
    | cons c r =>
      obtain ⟨-, hpoint, he, hE⟩ := endsNumber_cons.mp hr
      simp [hpoint, he, hE, takeWord]

/-! ## Documents -/

mutual

/-- The document is legible and has no numbers but whole ones of 64 bits. -/
def IsWritable : Json → Prop
  | .null | .bool _ | .string _ => True
  | .number (.integer n) => -(twoTo 63 : Int) ≤ n ∧ n ≤ maxWord
  | .array items => areWritable items
  | .object fields => areFieldsWritable fields
  | _ => False

/-- All items can be written. -/
def areWritable : List Json → Prop
  | [] => True
  | item :: items => item.IsWritable ∧ areWritable items

/-- All values can be written and all keys are legible. -/
def areFieldsWritable : List (Option String × Json) → Prop
  | [] => True
  | (key, value) :: fields => (key.isSome ∧ value.IsWritable) ∧ areFieldsWritable fields

end

/-- The characters of the form with lines. -/
def prettyChars (depth : Nat) (j : Json) : List Char := (j.toPrettyAt depth).toList

/-- The start of a line. -/
def lineStart (depth : Nat) : List Char := '\n' :: (indentation depth).toList

theorem lineStart_append (depth : Nat) (cs : List Char) :
    lineStart depth ++ cs = '\n' :: ((indentation depth).toList ++ cs) := rfl

/-- The characters behind an item of an array: the items that are left, the closing bracket, and what follows. -/
def moreItems (depth : Nat) : List Json → List Char → List Char
  | [], r => lineStart depth ++ ']' :: r
  | item :: items, r => ',' :: (lineStart (depth + 1) ++ (prettyChars (depth + 1) item ++ moreItems depth items r))

/-- The characters of a field. -/
def prettyField (depth : Nat) (field : Option String × Json) : List Char :=
  (textLiteral (field.1.getD "")).toList ++ ':' :: ' ' :: prettyChars depth field.2

/-- The characters behind a field of an object: the fields that are left, the closing brace, and what follows. -/
def moreFields (depth : Nat) : List (Option String × Json) → List Char → List Char
  | [], r => lineStart depth ++ '\x7d' :: r
  | field :: fields, r => ',' :: (lineStart (depth + 1) ++ (prettyField (depth + 1) field ++ moreFields depth fields r))

attribute [local simp] toPrettyAt itemsPretty fieldsPretty

theorem prettyChars_array (depth : Nat) (item : Json) (items : List Json) (r : List Char) :
    prettyChars depth (.array (item :: items)) ++ r =
      '[' :: (lineStart (depth + 1) ++ (prettyChars (depth + 1) item ++ moreItems depth items r)) := by
  have hitems : ∀ (items : List Json) (item : Json),
      (",\n".intercalate (itemsPretty (depth + 1) (item :: items))).toList ++ (lineStart depth ++ ']' :: r) =
        (indentation (depth + 1)).toList ++ (prettyChars (depth + 1) item ++ moreItems depth items r) := by
    intro items
    induction items with
    | nil => simp [moreItems, prettyChars]
    | cons next items ih =>
      intro item
      rw [moreItems, lineStart_append (depth + 1), ← ih next]
      simp [prettyChars, String.intercalate_cons_cons]
  rw [prettyChars, toPrettyAt, lineStart_append (depth + 1), ← hitems]
  simp [lineStart]

theorem prettyChars_object (depth : Nat) (field : Option String × Json) (fields : List (Option String × Json))
    (r : List Char) : prettyChars depth (.object (field :: fields)) ++ r =
      '\x7b' :: (lineStart (depth + 1) ++ (prettyField (depth + 1) field ++ moreFields depth fields r)) := by
  have hfields : ∀ (fields : List (Option String × Json)) (field : Option String × Json),
      (",\n".intercalate (fieldsPretty (depth + 1) (field :: fields))).toList ++ (lineStart depth ++ '\x7d' :: r) =
        (indentation (depth + 1)).toList ++ (prettyField (depth + 1) field ++ moreFields depth fields r) := by
    intro fields
    induction fields with
    | nil => simp [moreFields, prettyField, prettyChars]
    | cons next fields ih =>
      intro field
      rw [moreFields, lineStart_append (depth + 1), ← ih next]
      simp [prettyField, prettyChars, String.intercalate_cons_cons]
  rw [prettyChars, toPrettyAt, lineStart_append (depth + 1), ← hfields]
  simp [lineStart]

theorem length_lineStart (depth : Nat) : (lineStart depth).length = 2 * depth + 1 := by
  simp [lineStart, indentation]

theorem isSpace_of_mem_lineStart {depth : Nat} : ∀ c ∈ lineStart depth, isSpace c = true := by
  intro c hc
  rcases List.mem_cons.mp hc with rfl | hc
  · rfl
  · rw [indentation, String.toList_ofList] at hc
    rw [List.eq_of_mem_replicate hc]
    rfl

theorem prettyChars_null (depth : Nat) : prettyChars depth .null = ['n', 'u', 'l', 'l'] := by
  simp [prettyChars]

theorem prettyChars_bool (depth : Nat) (b : Bool) :
    prettyChars depth (.bool b) = if b then ['t', 'r', 'u', 'e'] else ['f', 'a', 'l', 's', 'e'] := by
  cases b <;> simp [prettyChars]

theorem prettyChars_nil_array (depth : Nat) : prettyChars depth (.array []) = ['[', ']'] := by
  simp [prettyChars]

theorem prettyChars_nil_object (depth : Nat) : prettyChars depth (.object []) = ['\x7b', '\x7d'] := by
  simp [prettyChars]

/-- A whole number is written as its digits, behind a sign where it is negative. -/
theorem exists_prettyChars_integer (n : Int) : ∃ (negative : Bool) (k : Nat),
    n = (if negative then -(k : Int) else k) ∧ (negative = true → 0 < k) ∧ ∀ depth,
      prettyChars depth (.number (.integer n)) = (if negative then ['-'] else []) ++ Nat.toDigits 10 k := by
  cases n with
  | ofNat k =>
    exact ⟨false, k, rfl, by simp, fun depth => by simp [prettyChars, numberText, Int.toString_eq_repr,
      Int.repr_eq_if]⟩
  | negSucc k =>
    exact ⟨true, k + 1, rfl, by simp, fun depth => by simp [prettyChars, numberText, Int.toString_eq_repr,
      Int.repr_eq_if]⟩

theorem exists_toDigits_eq_cons (n : Nat) : ∃ c cs, Nat.toDigits 10 n = c :: cs ∧ isDigit c = true := by
  obtain ⟨c, cs, h⟩ := List.exists_cons_of_ne_nil (Nat.toDigits_ne_nil (b := 10) (n := n))
  exact ⟨c, cs, h, isDigit_of_mem_toDigits c (h ▸ List.mem_cons_self)⟩

theorem ne_of_isDigit {c d : Char} (hc : isDigit c = true) (hd : isDigit d = false) : c ≠ d := by
  rintro rfl
  rw [hc] at hd
  cases hd

theorem isSpace_of_isDigit {c : Char} (hc : isDigit c = true) : isSpace c = false := by
  have hne : ∀ d, isDigit d = false → c ≠ d := fun d hd => ne_of_isDigit hc hd
  simp [isSpace, hne ' ' rfl, hne '\t' rfl, hne '\n' rfl, hne '\r' rfl]

/-- A written document starts neither with a blank nor with the end of an array. -/
theorem exists_prettyChars_eq_cons {j : Json} (hj : j.IsWritable) (depth : Nat) (r : List Char) :
    ∃ c cs, prettyChars depth j ++ r = c :: cs ∧ isSpace c = false ∧ c ≠ ']' := by
  cases j with
  | null => exact ⟨'n', _, by rw [prettyChars_null]; rfl, rfl, by decide⟩
  | bool b => cases b with
    | true => exact ⟨'t', _, by rw [prettyChars_bool]; rfl, rfl, by decide⟩
    | false => exact ⟨'f', _, by rw [prettyChars_bool]; rfl, rfl, by decide⟩
  | number n => cases n with
    | real negative x => exact hj.elim
    | integer n =>
      obtain ⟨negative, k, -, -, hchars⟩ := exists_prettyChars_integer n
      rw [hchars]
      cases negative with
      | true => exact ⟨'-', _, rfl, rfl, by decide⟩
      | false =>
        obtain ⟨c, cs, hdigits, hc⟩ := exists_toDigits_eq_cons k
        exact ⟨c, cs ++ r, by simp [hdigits], isSpace_of_isDigit hc, ne_of_isDigit hc rfl⟩
  | string text =>
    obtain ⟨cs, h, -⟩ := readText_textLiteral text r
    exact ⟨'\"', cs, h, rfl, by decide⟩
  | array items => cases items with
    | nil => exact ⟨'[', _, by rw [prettyChars_nil_array]; rfl, rfl, by decide⟩
    | cons item items => exact ⟨'[', _, prettyChars_array depth item items r, rfl, by decide⟩
  | object fields => cases fields with
    | nil => exact ⟨'\x7b', _, by rw [prettyChars_nil_object]; rfl, rfl, by decide⟩
    | cons field fields => exact ⟨'\x7b', _, prettyChars_object depth field fields r, rfl, by decide⟩
  | illegible => exact hj.elim
  | malformed => exact hj.elim

/-! ## Reading what was written -/

/-- Blanks in front of a document do not matter. -/
theorem readValue_blank (fuel : Nat) {blank : List Char} (hblank : ∀ c ∈ blank, isSpace c = true) (cs : List Char) :
    readValue fuel (blank ++ cs) = readValue fuel cs := by
  cases fuel with
  | zero => rfl
  | succ fuel => rw [readValue, readValue, List.dropWhile_append_of_pos hblank]

theorem readFields_lineStart (fuel depth : Nat) (cs : List Char) :
    readFields fuel (lineStart depth ++ cs) = readFields fuel cs := by
  cases fuel with
  | zero => rfl
  | succ fuel => rw [readFields, readFields, List.dropWhile_append_of_pos isSpace_of_mem_lineStart]

theorem readItems_lineStart (fuel depth : Nat) (cs : List Char) :
    readItems fuel (lineStart depth ++ cs) = readItems fuel cs := by
  cases fuel with
  | zero => rfl
  | succ fuel => rw [readItems, readItems, readValue_blank fuel isSpace_of_mem_lineStart]

theorem readValue_digit {c : Char} (hc : isDigit c = true) (fuel : Nat) (cs : List Char) :
    readValue (fuel + 1) (c :: cs) = readNumber false (c :: cs) := by
  rw [readValue, List.dropWhile_cons_of_neg (by simp [isSpace_of_isDigit hc])]
  split
  case h_8 h => rw [← h, if_pos (by obtain ⟨rfl, -⟩ := List.cons.inj h; exact hc)]
  case h_9 h => cases h
  all_goals rename_i h; exact absurd (List.cons.inj h).1 (ne_of_isDigit hc rfl)

theorem readValue_integer {n : Int} (hn : (number (.integer n)).IsWritable) (depth fuel : Nat) {r : List Char}
    (hr : endsNumber r = true) :
    readValue (fuel + 1) (prettyChars depth (.number (.integer n)) ++ r) = (.number (.integer n), some r) := by
  obtain ⟨negative, k, hk, hpos, hchars⟩ := exists_prettyChars_integer n
  have hword : twoTo 63 ≤ maxWord := by decide
  have hbounds : -(twoTo 63 : Int) ≤ n ∧ n ≤ maxWord := hn
  rw [hchars]
  cases negative with
  | true =>
    have hk' : n = -(k : Int) := hk
    have hzero : 0 < k := hpos rfl
    have hsign (cs : List Char) : readValue (fuel + 1) ('-' :: cs) = readNumber true cs := rfl
    rw [if_pos rfl, List.append_assoc, List.singleton_append, hsign, readNumber_toDigits true (by omega) hr, ofWhole,
      if_pos rfl, if_neg (by simp; omega), hk']
  | false =>
    have hk' : n = (k : Int) := hk
    obtain ⟨c, cs, hdigits, hc⟩ := exists_toDigits_eq_cons k
    have hread := readNumber_toDigits false (n := k) (by omega) hr
    rw [if_neg (by simp), List.nil_append]
    rw [hdigits, List.cons_append] at hread ⊢
    rw [readValue_digit hc, hread, hk']
    rfl

theorem endsNumber_moreItems (depth : Nat) (items : List Json) (r : List Char) :
    endsNumber (moreItems depth items r) = true := by
  cases items <;> rfl

theorem endsNumber_moreFields (depth : Nat) (fields : List (Option String × Json)) (r : List Char) :
    endsNumber (moreFields depth fields r) = true := by
  cases fields <;> rfl

theorem dropWhile_lineStart {depth : Nat} {c : Char} (hc : isSpace c = false) (cs : List Char) :
    (lineStart depth ++ c :: cs).dropWhile isSpace = c :: cs := by
  rw [List.dropWhile_append_of_pos isSpace_of_mem_lineStart, List.dropWhile_cons_of_neg (by simp [hc])]

theorem readValue_bracket (fuel : Nat) {c : Char} {cs cs' : List Char} (h : cs.dropWhile isSpace = c :: cs')
    (hc : c ≠ ']') :
    readValue (fuel + 1) ('[' :: cs) = (.array (readItems fuel (c :: cs')).1, (readItems fuel (c :: cs')).2) := by
  have hopen : ('[' :: cs).dropWhile isSpace = '[' :: cs := List.dropWhile_cons_of_neg (by decide)
  simp only [readValue, hopen, h]
  split
  next hbracket => exact absurd (List.cons.inj hbracket).1 hc
  next => rfl

theorem readValue_brace (fuel : Nat) {c : Char} {cs cs' : List Char} (h : cs.dropWhile isSpace = c :: cs')
    (hc : c ≠ '\x7d') :
    readValue (fuel + 1) ('\x7b' :: cs) = (.object (readFields fuel (c :: cs')).1, (readFields fuel (c :: cs')).2) := by
  have hopen : ('\x7b' :: cs).dropWhile isSpace = '\x7b' :: cs := List.dropWhile_cons_of_neg (by decide)
  simp only [readValue, hopen, h]
  split
  next hbrace => exact absurd (List.cons.inj hbrace).1 hc
  next => rfl

/-- The document is read back where it was written, whatever follows it. -/
def IsReadBack (j : Json) : Prop :=
  ∀ (depth : Nat) {fuel : Nat} {r : List Char}, endsNumber r = true → (prettyChars depth j ++ r).length ≤ fuel →
    readValue fuel (prettyChars depth j ++ r) = (j, some r)

theorem readItems_item {item : Json} (hitem : item.IsReadBack) {depth fuel : Nat} {r : List Char}
    (hr : endsNumber r = true) (hfuel : (prettyChars depth item ++ r).length ≤ fuel) :
    readItems (fuel + 1) (prettyChars depth item ++ r) = match r.dropWhile isSpace with
      | ']' :: rest => ([item], some rest)
      | ',' :: rest => (item :: (readItems fuel rest).1, (readItems fuel rest).2)
      | _ => ([item, .malformed], none) := by
  rewrite [readItems, hitem depth hr hfuel]
  rfl

theorem readItems_pretty {item : Json} {items : List Json} (hitem : item.IsReadBack)
    (hitems : ∀ next ∈ items, next.IsReadBack) (depth : Nat) {fuel : Nat} {r : List Char}
    (hfuel : (prettyChars (depth + 1) item ++ moreItems depth items r).length ≤ fuel) :
    readItems (fuel + 1) (prettyChars (depth + 1) item ++ moreItems depth items r) = (item :: items, some r) := by
  induction items generalizing item fuel with
  | nil =>
    rw [readItems_item hitem (endsNumber_moreItems depth [] r) hfuel, moreItems, dropWhile_lineStart (by decide)]
    rfl
  | cons next items ih =>
    obtain ⟨hnext, hitems⟩ := List.forall_mem_cons.mp hitems
    simp only [moreItems, List.length_cons, List.length_append, length_lineStart] at hfuel
    obtain ⟨fuel, rfl⟩ : ∃ f, fuel = f + 1 := Nat.exists_eq_succ_of_ne_zero (by omega)
    have hlength : (prettyChars (depth + 1) next ++ moreItems depth items r).length ≤ fuel := by
      rw [List.length_append]
      omega
    have hrest := ih hnext hitems hlength
    rw [readItems_item hitem (endsNumber_moreItems depth (next :: items) r)
      (by simp only [moreItems, List.length_cons, List.length_append, length_lineStart]; omega)]
    exact congrArg (fun found => (item :: found.1, found.2))
      ((readItems_lineStart (fuel + 1) (depth + 1) _).trans hrest)

theorem readFields_field {key : String} {value : Json} (hvalue : value.IsReadBack) {depth fuel : Nat} {r : List Char}
    (hr : endsNumber r = true) (hfuel : (prettyField depth (some key, value) ++ r).length ≤ fuel) :
    readFields (fuel + 1) (prettyField depth (some key, value) ++ r) = match r.dropWhile isSpace with
      | '\x7d' :: rest => ([(some key, value)], some rest)
      | ',' :: rest => ((some key, value) :: (readFields fuel rest).1, (readFields fuel rest).2)
      | _ => ([(some key, value), (none, .malformed)], none) := by
  obtain ⟨cs, hchars, hkey⟩ := readText_textLiteral key (':' :: ([' '] ++ (prettyChars depth value ++ r)))
  have hfield : prettyField depth (some key, value) ++ r = '\"' :: cs := by
    rw [← hchars]
    simp [prettyField]
  have hquote : ('\"' :: cs).dropWhile isSpace = '\"' :: cs := List.dropWhile_cons_of_neg (by decide)
  have hcolon (t : List Char) : (':' :: t).dropWhile isSpace = ':' :: t := List.dropWhile_cons_of_neg (by decide)
  have hblank : ∀ c ∈ [' '], isSpace c = true := List.forall_mem_singleton.mpr rfl
  have hread : readValue fuel ([' '] ++ (prettyChars depth value ++ r)) = (value, some r) := by
    rw [readValue_blank fuel hblank]
    refine hvalue depth hr ?_
    simp only [prettyField, List.length_cons, List.length_append] at hfuel ⊢
    omega
  rw [hfield]
  simp only [readFields, hquote, hkey, hcolon]
  rewrite [hread]
  rfl

theorem readFields_pretty {key : String} {value : Json} {fields : List (Option String × Json)}
    (hvalue : value.IsReadBack) (hfields : ∀ next ∈ fields, next.1.isSome ∧ next.2.IsReadBack) (depth : Nat)
    {fuel : Nat} {r : List Char}
    (hfuel : (prettyField (depth + 1) (some key, value) ++ moreFields depth fields r).length ≤ fuel) :
    readFields (fuel + 1) (prettyField (depth + 1) (some key, value) ++ moreFields depth fields r) =
      ((some key, value) :: fields, some r) := by
  induction fields generalizing key value fuel with
  | nil =>
    rw [readFields_field hvalue (endsNumber_moreFields depth [] r) hfuel, moreFields, dropWhile_lineStart (by decide)]
    rfl
  | cons next fields ih =>
    obtain ⟨nextKey, nextValue⟩ := next
    obtain ⟨⟨hkey, hnext⟩, hothers⟩ := List.forall_mem_cons.mp hfields
    obtain ⟨nextKey, rfl⟩ := Option.isSome_iff_exists.mp hkey
    simp only [moreFields, List.length_cons, List.length_append, length_lineStart] at hfuel
    obtain ⟨fuel, rfl⟩ : ∃ f, fuel = f + 1 := Nat.exists_eq_succ_of_ne_zero (by omega)
    have hlength :
        (prettyField (depth + 1) (some nextKey, nextValue) ++ moreFields depth fields r).length ≤ fuel := by
      rw [List.length_append]
      omega
    have hrest := ih hnext hothers hlength
    rw [readFields_field hvalue (endsNumber_moreFields depth ((some nextKey, nextValue) :: fields) r)
      (by simp only [moreFields, List.length_cons, List.length_append, length_lineStart]; omega)]
    exact congrArg (fun found => ((some key, value) :: found.1, found.2))
      ((readFields_lineStart (fuel + 1) (depth + 1) _).trans hrest)

/-- Nothing but the first step needs fuel. -/
theorem isReadBack_of_step {j : Json} (hj : j.IsWritable)
    (h : ∀ (depth fuel : Nat) (r : List Char), endsNumber r = true →
      readValue (fuel + 1) (prettyChars depth j ++ r) = (j, some r)) : j.IsReadBack := by
  intro depth fuel r hr hfuel
  obtain ⟨c, cs, hchars, -, -⟩ := exists_prettyChars_eq_cons hj depth r
  obtain ⟨fuel, rfl⟩ : ∃ f, fuel = f + 1 := Nat.exists_eq_succ_of_ne_zero (by rintro rfl; simp [hchars] at hfuel)
  exact h depth fuel r hr

theorem isReadBack_array {items : List Json} (hitems : ∀ item ∈ items, item.IsWritable ∧ item.IsReadBack) :
    (array items).IsReadBack := by
  intro depth fuel r hr hfuel
  cases items with
  | nil =>
    have hempty : (array []).IsReadBack := isReadBack_of_step (by simp [IsWritable, areWritable])
      fun depth fuel r _ => by
        rw [prettyChars_nil_array]
        rfl
    exact hempty depth hr hfuel
  | cons item items =>
    obtain ⟨hitem, hitems⟩ := List.forall_mem_cons.mp hitems
    obtain ⟨c, cs, hchars, hspace, hend⟩ := exists_prettyChars_eq_cons hitem.1 (depth + 1) (moreItems depth items r)
    rw [prettyChars_array] at hfuel ⊢
    simp only [List.length_cons, List.length_append, length_lineStart] at hfuel
    obtain ⟨fuel, rfl⟩ : ∃ f, fuel = f + 1 + 1 := ⟨fuel - 2, by omega⟩
    have hlength : (prettyChars (depth + 1) item ++ moreItems depth items r).length ≤ fuel := by
      rw [List.length_append]
      omega
    have hread := readItems_pretty hitem.2 (fun next hnext => (hitems next hnext).2) depth hlength
    rw [hchars] at hread ⊢
    rw [readValue_bracket (fuel + 1) (dropWhile_lineStart hspace cs) hend, hread]

theorem isReadBack_object {fields : List (Option String × Json)}
    (hfields : ∀ field ∈ fields, field.1.isSome ∧ field.2.IsReadBack) : (object fields).IsReadBack := by
  intro depth fuel r hr hfuel
  cases fields with
  | nil =>
    have hempty : (object []).IsReadBack := isReadBack_of_step (by simp [IsWritable, areFieldsWritable])
      fun depth fuel r _ => by
        rw [prettyChars_nil_object]
        rfl
    exact hempty depth hr hfuel
  | cons field fields =>
    obtain ⟨key, value⟩ := field
    obtain ⟨⟨hkey, hvalue⟩, hothers⟩ := List.forall_mem_cons.mp hfields
    obtain ⟨key, rfl⟩ := Option.isSome_iff_exists.mp hkey
    rw [prettyChars_object] at hfuel ⊢
    simp only [List.length_cons, List.length_append, length_lineStart] at hfuel
    obtain ⟨fuel, rfl⟩ : ∃ f, fuel = f + 1 + 1 := ⟨fuel - 2, by omega⟩
    have hlength : (prettyField (depth + 1) (some key, value) ++ moreFields depth fields r).length ≤ fuel := by
      rw [List.length_append]
      omega
    have hread := readFields_pretty hvalue hothers depth hlength
    obtain ⟨cs, hchars, -⟩ := readText_textLiteral key
      (':' :: ' ' :: prettyChars (depth + 1) value ++ moreFields depth fields r)
    rw [prettyField, List.append_assoc, Option.getD_some, hchars] at hread ⊢
    rw [readValue_brace (fuel + 1) (dropWhile_lineStart (by decide) cs) (by decide), hread]

mutual

/-- **A document that was written is read back.** -/
theorem IsWritable.isReadBack : ∀ {j : Json}, j.IsWritable → j.IsReadBack
  | .null, h => isReadBack_of_step h fun depth fuel r _ => by rw [prettyChars_null]; rfl
  | .bool b, h => isReadBack_of_step h fun depth fuel r _ => by rw [prettyChars_bool]; cases b <;> rfl
  | .number (.integer n), h => isReadBack_of_step h fun depth fuel r hr => readValue_integer h depth fuel hr
  | .string text, h => isReadBack_of_step h fun depth fuel r _ => by
    obtain ⟨cs, hchars, hread⟩ := readText_textLiteral text r
    refine (congrArg (readValue (fuel + 1)) hchars).trans ?_
    have hquote : ('\"' :: cs).dropWhile isSpace = '\"' :: cs := List.dropWhile_cons_of_neg (by decide)
    simp only [readValue, hquote, hread]
  | .array items, h => isReadBack_array (isReadBack_items h)
  | .object fields, h => isReadBack_object (isReadBack_fields h)

theorem isReadBack_items : ∀ {items : List Json}, areWritable items →
    ∀ item ∈ items, item.IsWritable ∧ item.IsReadBack
  | [], _ => by simp
  | item :: items, h => List.forall_mem_cons.mpr ⟨⟨h.1, h.1.isReadBack⟩, isReadBack_items h.2⟩

theorem isReadBack_fields : ∀ {fields : List (Option String × Json)}, areFieldsWritable fields →
    ∀ field ∈ fields, field.1.isSome ∧ field.2.IsReadBack
  | [], _ => by simp
  | (key, value) :: fields, h => List.forall_mem_cons.mpr ⟨⟨h.1.1, h.1.2.isReadBack⟩, isReadBack_fields h.2⟩

end

/-- **The document that is read is the one that was written.** -/
theorem read_toPretty {j : Json} (hj : j.IsWritable) : read j.toPretty = ⟨j, true⟩ := by
  have hlength : (prettyChars 0 j ++ []).length ≤ 2 * (prettyChars 0 j).length + 2 := by
    rw [List.append_nil]
    omega
  have hread := hj.isReadBack 0 rfl hlength
  rw [List.append_nil] at hread
  have htext : j.toPretty.toList = prettyChars 0 j := rfl
  rw [read, htext, hread]
  rfl

end Json

end ContractStubs
