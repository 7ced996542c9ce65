import ContractStubs.Json.Basic
import ContractStubs.Json.Printer
import ContractStubs.Text.Quoted

/-!
# What can be wrong with a JSON document

A document may be wrong in form, or well formed and not fit the type it is read as. Each cause has a message.
-/

namespace ContractStubs

/-- Why a document does not denote a value of some type. -/
inductive JsonFault where
  /-- The text is no JSON here. -/
  | malformed
  /-- Something else was wanted in place of the document. -/
  | mismatch (found : Json) (wanted : String)
  /-- The document is of the right kind and denotes no value. -/
  | outOfRange (found : Json) (wanted : String)
  /-- A record has no such field and cannot do without. -/
  | missing (field : String)
  /-- A record has a field twice. -/
  | duplicate (field : String)
  /-- A record written as a list ends before a field that it cannot do without. -/
  | short (length : Nat) (record : String) (size : Nat)
  /-- A record written as a list goes on after its last field. -/
  | surplus (length : Nat)
  /-- None of the variants has this name. -/
  | unknownVariant (name : String) (known : List String)
  /-- None of the words is this one, whatever the case of its letters. -/
  | unknownWord (name : String) (known : List String)
  /-- A variant with content was written without. -/
  | bareVariant
  /-- A variant with content is an object with one key, and this object has another number of them. -/
  | notSingleKey
  /-- A variant is a text or an object. -/
  | notVariant (found : Json)
  deriving Repr, Inhabited

namespace JsonFault

/-- What a document is, for a message. -/
def describe : Json → String
  | .null => "null"
  | .bool b => "boolean `" ++ (if b then "true" else "false") ++ "`"
  | .number (.integer n) => "integer `" ++ toString n ++ "`"
  | .number n => "floating point `" ++ Json.numberText n ++ "`"
  | .string s => "string " ++ quoted s
  | .array _ => "sequence"
  | .object _ => "map"
  | .illegible => "nothing"
  | .malformed => "nothing"

/-- The names that were possible. -/
def choice : List String → String
  | [a] => "`" ++ a ++ "`"
  | [a, b] => "`" ++ a ++ "` or `" ++ b ++ "`"
  | names => "one of " ++ ", ".intercalate (names.map fun name => "`" ++ name ++ "`")

/-- The message of a fault. -/
def message : JsonFault → String
  | .malformed => "malformed"
  | .mismatch found wanted => "invalid type: " ++ describe found ++ ", expected " ++ wanted
  | .outOfRange found wanted => "invalid value: " ++ describe found ++ ", expected " ++ wanted
  | .missing field => "missing field `" ++ field ++ "`"
  | .duplicate field => "duplicate field `" ++ field ++ "`"
  | .short length record size =>
    "invalid length " ++ toString length ++ ", expected struct " ++ record ++ " with " ++ toString size ++
      (if size = 1 then " element" else " elements")
  | .surplus length => "invalid length " ++ toString length ++ ", expected fewer elements in array"
  | .unknownVariant name known => "unknown variant `" ++ name ++ "`, expected " ++ choice known
  | .unknownWord name known => "unknown variant '" ++ name ++ "', expected one of: " ++ ", ".intercalate known
  | .bareVariant => "invalid type: unit variant, expected newtype variant"
  | .notSingleKey => "invalid value: map, expected map with a single key"
  | .notVariant found => "invalid type: " ++ describe found ++ ", expected string or map"

/-- In a text, these faults are mistakes of form: there is no JSON of the wanted type that starts like this. -/
def isFormal : JsonFault → Bool
  | .malformed | .surplus _ | .notSingleKey | .notVariant _ => true
  | _ => false

end JsonFault

end ContractStubs
