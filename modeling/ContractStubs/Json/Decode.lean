import ContractStubs.Json.Fault

/-!
# Values of JSON documents

Readers of plain values: texts, truth values, counts, lists, tables, words and variants. Where a document does not fit,
the answer is the first fault in the order of the document.
-/

namespace ContractStubs

namespace Json

/-- The fault of a document where something else was wanted. -/
def unlike (wanted : String) : Json → JsonFault
  | .illegible | .malformed => .malformed
  | j => .mismatch j wanted

/-- A text, called `wanted` where it is missing. -/
def asTextCalled (wanted : String) : Json → Except JsonFault String
  | .string s => .ok s
  | j => .error (unlike wanted j)

/-- A text. -/
def asText : Json → Except JsonFault String := asTextCalled "a string"

/-- A file name. -/
def asPath : Json → Except JsonFault String := asTextCalled "path string"

/-- A truth value. -/
def asBool : Json → Except JsonFault Bool
  | .bool b => .ok b
  | j => .error (unlike "a boolean" j)

/-- A count. -/
def asCount : Json → Except JsonFault Nat
  | .number (.integer n) => if n < 0 then .error (.outOfRange (.number (.integer n)) "usize") else .ok n.toNat
  | j => .error (unlike "usize" j)

/-- Nothing, written `null`, or a value. -/
def asOption {α : Type} (decode : Json → Except JsonFault α) : Json → Except JsonFault (Option α)
  | .null => .ok none
  | j => (decode j).map some

/-- The values of all items. -/
def decodeAll {α : Type} (decode : Json → Except JsonFault α) : List Json → Except JsonFault (List α)
  | [] => .ok []
  | item :: items => do
    let a ← decode item
    let as ← decodeAll decode items
    .ok (a :: as)

/-- A list of values. -/
def asList {α : Type} (decode : Json → Except JsonFault α) : Json → Except JsonFault (List α)
  | .array items => decodeAll decode items
  | j => .error (unlike "a sequence" j)

/-- The entries of a table, in the order of the document. -/
def decodeEntries {α : Type} (decode : Json → Except JsonFault α) :
    List (Option String × Json) → Except JsonFault (List (String × α))
  | [] => .ok []
  | (none, _) :: _ => .error .malformed
  | (some key, value) :: fields => do
    let a ← decode value
    let entries ← decodeEntries decode fields
    .ok ((key, a) :: entries)

/-- A table. -/
def asEntries {α : Type} (decode : Json → Except JsonFault α) : Json → Except JsonFault (List (String × α))
  | .object fields => decodeEntries decode fields
  | j => .error (unlike "a map" j)

/-- A text with its ASCII letters in lower case. -/
def lowerCase (s : String) : String := String.ofList (s.toList.map Char.toLower)

/-- One of some words, whatever the case of its letters. -/
def asWord {α : Type} (words : List (String × α)) (j : Json) : Except JsonFault α := do
  let s ← asText j
  match words.lookup (lowerCase s) with
  | some a => .ok a
  | none => .error (.unknownWord s (words.map (·.1)))

/-- A variant of a type: its name alone, or its name and a content. -/
inductive Variant (α : Type) where
  | plain (value : α)
  | carrying (decode : Json → Except JsonFault α)

/-- A variant found by its name. -/
def findVariant {α : Type} (variants : List (String × Variant α)) (name : String) : Except JsonFault (Variant α) :=
  match variants.lookup name with
  | some v => .ok v
  | none => .error (.unknownVariant name (variants.map (·.1)))

/-- One of some variants: a text that is its name, or an object that has its name as the only key. -/
def asVariant {α : Type} (variants : List (String × Variant α)) : Json → Except JsonFault α
  | .string name => do
    match ← findVariant variants name with
    | .plain a => .ok a
    | .carrying _ => .error .bareVariant
  | .object [(none, _)] => .error .malformed
  | .object [(some name, value)] => do
    match ← findVariant variants name with
    | .plain a =>
      match value with
      | .null => .ok a
      | j => .error (unlike "unit" j)
    | .carrying decode => decode value
  | .object _ => .error .notSingleKey
  | .illegible | .malformed => .error .malformed
  | j => .error (.notVariant j)

end Json

end ContractStubs
