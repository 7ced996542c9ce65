import ContractStubs.Json.Basic
import ContractStubs.Decimal.Shortest

/-!
# Writing JSON

Two written forms: one without any blank, and one with a line for each item and field, two spaces deeper at each level.
-/

namespace ContractStubs

namespace Json

/-- A character inside a text: what would end or spoil the text is escaped. -/
def escapedChar (c : Char) : List Char :=
  match c with
  | '\"' => ['\\', '\"']
  | '\\' => ['\\', '\\']
  | '\x08' => ['\\', 'b']
  | '\x0c' => ['\\', 'f']
  | '\n' => ['\\', 'n']
  | '\r' => ['\\', 'r']
  | '\t' => ['\\', 't']
  | c =>
    if c.toNat < 0x20 then ['\\', 'u', '0', '0'] ++ (if c.toNat < 0x10 then ['0'] else []) ++ Nat.toDigits 16 c.toNat
    else [c]

/-- A text between quotation marks. -/
def textLiteral (text : String) : String := String.ofList (['\"'] ++ text.toList.flatMap escapedChar ++ ['\"'])

/-- A number. -/
def numberText : JsonNumber → String
  | .integer n => toString n
  | .real true x => "-" ++ x.toText
  | .real false x => x.toText

/-- Spaces at the start of a line. -/
def indentation (depth : Nat) : String := String.ofList (List.replicate (2 * depth) ' ')

mutual

/-- The form without blanks. -/
def toCompact : Json → String
  | .null => "null"
  | .bool b => if b then "true" else "false"
  | .number n => numberText n
  | .string s => textLiteral s
  | .array items => "[" ++ ",".intercalate (itemsCompact items) ++ "]"
  | .object fields => "\x7b" ++ ",".intercalate (fieldsCompact fields) ++ "\x7d"
  | .illegible => "null"
  | .malformed => "null"

/-- The items of an array. -/
def itemsCompact : List Json → List String
  | [] => []
  | item :: items => toCompact item :: itemsCompact items

/-- The fields of an object. -/
def fieldsCompact : List (Option String × Json) → List String
  | [] => []
  | (key, value) :: fields => (textLiteral (key.getD "") ++ ":" ++ toCompact value) :: fieldsCompact fields

end

mutual

/-- The form with lines, for a document that stands at a given depth. -/
def toPrettyAt (depth : Nat) : Json → String
  | .null => "null"
  | .bool b => if b then "true" else "false"
  | .number n => numberText n
  | .string s => textLiteral s
  | .array [] => "[]"
  | .array (item :: items) =>
    "[\n" ++ ",\n".intercalate (itemsPretty (depth + 1) (item :: items)) ++ "\n" ++ indentation depth ++ "]"
  | .object [] => "\x7b\x7d"
  | .object (field :: fields) =>
    "\x7b\n" ++ ",\n".intercalate (fieldsPretty (depth + 1) (field :: fields)) ++ "\n" ++ indentation depth ++ "\x7d"
  | .illegible => "null"
  | .malformed => "null"

/-- The items of an array, each on its line. -/
def itemsPretty (depth : Nat) : List Json → List String
  | [] => []
  | item :: items => (indentation depth ++ toPrettyAt depth item) :: itemsPretty depth items

/-- The fields of an object, each on its line. -/
def fieldsPretty (depth : Nat) : List (Option String × Json) → List String
  | [] => []
  | (key, value) :: fields =>
    (indentation depth ++ textLiteral (key.getD "") ++ ": " ++ toPrettyAt depth value) :: fieldsPretty depth fields

end

/-- The form with lines. -/
def toPretty (j : Json) : String := j.toPrettyAt 0

end Json

end ContractStubs
