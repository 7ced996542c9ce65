import ContractStubs.Json.Basic

/-!
# Reading JSON

A reader by recursive descent. Each step answers the document and what follows it, which is missing when the text went
wrong on the way.
-/

namespace ContractStubs

namespace Json

/-- A blank between the tokens of a JSON text. -/
def isSpace (c : Char) : Bool := c = ' ' || c = '\t' || c = '\n' || c = '\r'

/-- The value of a hexadecimal digit. -/
def hexDigit? (c : Char) : Option Nat :=
  if '0' ≤ c && c ≤ '9' then some (c.toNat - '0'.toNat)
  else if 'a' ≤ c && c ≤ 'f' then some (c.toNat - 'a'.toNat + 10)
  else if 'A' ≤ c && c ≤ 'F' then some (c.toNat - 'A'.toNat + 10)
  else none

/-- The value of four hexadecimal digits. -/
def hexFour? (a b c d : Char) : Option Nat := do
  let a ← hexDigit? a
  let b ← hexDigit? b
  let c ← hexDigit? c
  let d ← hexDigit? d
  some (((a * 16 + b) * 16 + c) * 16 + d)

/-! ## Texts -/

/-- One unit of a text as written: a character, or half of one. -/
inductive TextUnit where
  | char (c : Char)
  /-- A surrogate, which is a character only together with its partner. -/
  | half (unit : Nat)
  deriving DecidableEq, Repr, Inhabited

/-- The unit with a given code. -/
def TextUnit.ofCode (n : Nat) : TextUnit := if 0xd800 ≤ n && n < 0xe000 then .half n else .char (Char.ofNat n)

/-- The characters that a backslash and one letter stand for. -/
def shortEscape? : Char → Option Char
  | '\"' => some '\"'
  | '\\' => some '\\'
  | '/' => some '/'
  | 'b' => some '\x08'
  | 'f' => some '\x0c'
  | 'n' => some '\n'
  | 'r' => some '\r'
  | 't' => some '\t'
  | _ => none

/-- The units of a text behind its opening quotation mark, and what follows the closing one. -/
def readUnits : List Char → Option (List TextUnit × List Char)
  | [] => none
  | '\"' :: cs => some ([], cs)
  | '\\' :: 'u' :: a :: b :: c :: d :: cs => do
    let n ← hexFour? a b c d
    let (units, rest) ← readUnits cs
    some (.ofCode n :: units, rest)
  | '\\' :: c :: cs => do
    let c ← shortEscape? c
    let (units, rest) ← readUnits cs
    some (.char c :: units, rest)
  | c :: cs =>
    if c.toNat < 0x20 || c = '\\' then none
    else do
      let (units, rest) ← readUnits cs
      some (.char c :: units, rest)

/-- The characters of the units, unless one half stands without the other. -/
def joinUnits : List TextUnit → Option (List Char)
  | [] => some []
  | .char c :: units => (joinUnits units).map (c :: ·)
  | .half high :: .half low :: units =>
    if high < 0xdc00 && 0xdc00 ≤ low then
      (joinUnits units).map (Char.ofNat (0x10000 + (high - 0xd800) * 0x400 + (low - 0xdc00)) :: ·)
    else none
  | .half _ :: _ => none

/-- A text behind its opening quotation mark, missing when it denotes none, and what follows it. -/
def readText (cs : List Char) : Option (Option String × List Char) :=
  (readUnits cs).map fun (units, rest) => ((joinUnits units).map String.ofList, rest)

/-! ## Numbers -/

/-- A digit. -/
def isDigit (c : Char) : Bool := '0' ≤ c && c ≤ '9'

/-- The value of a digit. -/
def digitValue (c : Char) : Nat := c.toNat - '0'.toNat

/-- The greatest number of 64 bits. -/
def maxWord : Nat := twoTo 64 - 1

/-- Leading digits that fit into 64 bits, starting from `n`, and the digits that do not fit any more. -/
def takeWord : Nat → List Char → Nat × List Char
  | n, [] => (n, [])
  | n, c :: cs => if n * 10 + digitValue c > maxWord then (n, c :: cs) else takeWord (n * 10 + digitValue c) cs

/-- A significand times a power of ten, rounded after each multiplication or division; `10^308` is the greatest power
that is taken at once. Nothing where it is too large. -/
def scaled? : (fuel : Nat) → Binary64 → Int → Option Binary64
  | 0, x, _ => some x
  | fuel + 1, x, power =>
    if power.natAbs ≤ 308 then do
      let ten ← Binary64.ofNat? (tenTo power.natAbs)
      if power ≥ 0 then x.mul? ten else x.div? ten
    else if x.mantissa = 0 then some x
    else if power ≥ 0 then none
    else do
      let ten ← Binary64.ofNat? (tenTo 308)
      let x ← x.div? ten
      scaled? fuel x (power + 308)

/-- A number with a sign, a significand and a power of ten. -/
def ofParts (negative : Bool) (significand : Nat) (power : Int) : Json :=
  match (Binary64.ofNat? significand).bind fun x => scaled? (power.natAbs / 308 + 1) x power with
  | some x => .number (.real negative x)
  | none => .illegible

/-- A whole number, which is a real one when 64 bits do not hold it or when it is a negative zero. -/
def ofWhole (negative : Bool) (n : Nat) : Json :=
  if negative then
    if n = 0 || n > twoTo 63 then ofParts true n 0 else .number (.integer (-(n : Int)))
  else .number (.integer n)

/-- The exponent behind its letter: its value, and what follows. -/
def readExponent? (cs : List Char) : Option (Int × List Char) :=
  let (negative, cs) := match cs with
    | '+' :: cs => (false, cs)
    | '-' :: cs => (true, cs)
    | cs => (false, cs)
  let digits := cs.takeWhile isDigit
  if digits.isEmpty then none
  else
    let n : Nat := digits.foldl (fun n c => n * 10 + digitValue c) 0
    some (if negative then -(n : Int) else n, cs.dropWhile isDigit)

/-- A number behind its sign. -/
def readNumber (negative : Bool) (cs : List Char) : Json × Option (List Char) :=
  let whole := cs.takeWhile isDigit
  let rest := cs.dropWhile isDigit
  match whole with
  | [] => (.malformed, none)
  | '0' :: _ :: _ => (.malformed, none)
  | _ =>
    let (n, surplus) := takeWord 0 whole
    let fraction? : Option (Option (List Char) × List Char) := match rest with
      | '.' :: rest =>
        let digits := rest.takeWhile isDigit
        if digits.isEmpty then none else some (some digits, rest.dropWhile isDigit)
      | rest => some (none, rest)
    match fraction? with
    | none => (.malformed, none)
    | some (fraction, rest) =>
      let (n, left) := takeWord n (fraction.getD [])
      let used := (fraction.getD []).length - left.length
      let power : Int := (surplus.length : Int) - used
      match rest with
      | c :: rest =>
        if c = 'e' || c = 'E' then
          match readExponent? rest with
          | some (e, rest) => (ofParts negative n (power + e), some rest)
          | none => (.malformed, none)
        else if fraction.isNone && surplus.isEmpty then (ofWhole negative n, some (c :: rest))
        else (ofParts negative n power, some (c :: rest))
      | [] =>
        if fraction.isNone && surplus.isEmpty then (ofWhole negative n, some [])
        else (ofParts negative n power, some [])

/-! ## Documents -/

mutual

/-- One document. -/
def readValue : (fuel : Nat) → List Char → Json × Option (List Char)
  | 0, _ => (.malformed, none)
  | fuel + 1, cs =>
    match cs.dropWhile isSpace with
    | 'n' :: 'u' :: 'l' :: 'l' :: rest => (.null, some rest)
    | 't' :: 'r' :: 'u' :: 'e' :: rest => (.bool true, some rest)
    | 'f' :: 'a' :: 'l' :: 's' :: 'e' :: rest => (.bool false, some rest)
    | '\"' :: rest =>
      match readText rest with
      | some (some text, rest) => (.string text, some rest)
      | some (none, rest) => (.illegible, some rest)
      | none => (.malformed, none)
    | '[' :: rest =>
      match rest.dropWhile isSpace with
      | ']' :: rest => (.array [], some rest)
      | rest => let (items, rest) := readItems fuel rest; (.array items, rest)
    | '\x7b' :: rest =>
      match rest.dropWhile isSpace with
      | '\x7d' :: rest => (.object [], some rest)
      | rest => let (fields, rest) := readFields fuel rest; (.object fields, rest)
    | '-' :: rest => readNumber true rest
    | c :: rest => if isDigit c then readNumber false (c :: rest) else (.malformed, none)
    | [] => (.malformed, none)

/-- The items of an array up to its end. -/
def readItems : (fuel : Nat) → List Char → List Json × Option (List Char)
  | 0, _ => ([.malformed], none)
  | fuel + 1, cs =>
    match readValue fuel cs with
    | (item, none) => ([item], none)
    | (item, some rest) =>
      match rest.dropWhile isSpace with
      | ']' :: rest => ([item], some rest)
      | ',' :: rest => let (items, rest) := readItems fuel rest; (item :: items, rest)
      | _ => ([item, .malformed], none)

/-- The fields of an object up to its end. -/
def readFields : (fuel : Nat) → List Char → List (Option String × Json) × Option (List Char)
  | 0, _ => ([(none, .malformed)], none)
  | fuel + 1, cs =>
    match cs.dropWhile isSpace with
    | '\"' :: rest =>
      match readText rest with
      | none => ([(none, .malformed)], none)
      | some (key, rest) =>
        match rest.dropWhile isSpace with
        | ':' :: rest =>
          match readValue fuel rest with
          | (value, none) => ([(key, value)], none)
          | (value, some rest) =>
            match rest.dropWhile isSpace with
            | '\x7d' :: rest => ([(key, value)], some rest)
            | ',' :: rest => let (fields, rest) := readFields fuel rest; ((key, value) :: fields, rest)
            | _ => ([(key, value), (none, .malformed)], none)
        | _ => ([(key, .malformed)], none)
    | _ => ([(none, .malformed)], none)

end

/-- A text read as one document. -/
structure Source where
  /-- The document at the start of the text. -/
  root : Json
  /-- Nothing but blanks follows the document. -/
  complete : Bool
  deriving Repr, Inhabited

/-- The document that a text holds. -/
def read (text : String) : Source :=
  let cs := text.toList
  match readValue (2 * cs.length + 2) cs with
  | (root, some rest) => ⟨root, (rest.dropWhile isSpace).isEmpty⟩
  | (root, none) => ⟨root, false⟩

end Json

end ContractStubs
