import ContractStubs.Json.Record
import ContractStubs.TypeRef.Basic

/-!
# Type references in JSON

A reference is a record; its namespace, arguments, marks and element names are left out where there are none.
-/

namespace ContractStubs

/-- The field of a record, left out of it where there is no value. -/
def optionalField (name : String) : Option Json → List (String × Json)
  | some value => [(name, value)]
  | none => []

/-- The field of a record, left out of it where the list is empty. -/
def listField (name : String) : List Json → List (String × Json)
  | [] => []
  | values => [(name, .array values)]

/-- The field of a record, left out of it where the text is empty. -/
def textField (name text : String) : List (String × Json) := if text = "" then [] else [(name, .string text)]

namespace TypeRefKind

/-- The written kinds. -/
def words : List (String × TypeRefKind) :=
  [("named", .named), ("keyword", .keyword), ("type_parameter", .typeParameter), ("unresolved", .unresolved),
   ("tuple", .tuple), ("opaque", .verbatim)]

/-- The kind as it is written. -/
def toWord : TypeRefKind → String
  | .named => "named"
  | .keyword => "keyword"
  | .typeParameter => "type_parameter"
  | .unresolved => "unresolved"
  | .tuple => "tuple"
  | .verbatim => "opaque"

/-- The kind that a document denotes. -/
def ofJson : Json → Except JsonFault TypeRefKind :=
  Json.asVariant (words.map fun (word, kind) => (word, .plain kind))

end TypeRefKind

namespace TypeRef

/-- Nothing, or a text. -/
def elementNameJson : Option String → Json
  | some name => .string name
  | none => .null

mutual

/-- The record of a reference. -/
def toJson : TypeRef → Json
  | ⟨name, ns, args, suffix, names, kind⟩ =>
    .ofFields ([("name", .string name)] ++ optionalField "namespace" (ns.map .string)
      ++ listField "args" (allToJson args) ++ textField "suffix" suffix
      ++ listField "element_names" (names.map elementNameJson) ++ [("kind", .string kind.toWord)])

/-- The records of a list of references. -/
def allToJson : List TypeRef → List Json
  | [] => []
  | r :: rs => toJson r :: allToJson rs

end

/-- The record type. -/
def shape : RecordShape := ⟨"TypeRef", ["name", "namespace", "args", "suffix", "element_names", "kind"]⟩

/-- A reference from its row, the arguments being read already. -/
def assemble (args : Option (Nat × Except JsonFault (List TypeRef))) (r : RecordReader) : Column TypeRef :=
  TypeRef.mk <$> r.required "name" Json.asText <*> r.optional "namespace" Json.asText
    <*> .ofCell (.value []) args <*> r.withDefault "suffix" Json.asText ""
    <*> r.withDefault "element_names" (Json.asList (Json.asOption Json.asText)) []
    <*> r.required "kind" TypeRefKind.ofJson

mutual

/-- The reference that a document denotes. -/
def ofJson : Json → Except JsonFault TypeRef
  | .object fields => RecordReader.finish ⟨shape, .keyed fields⟩ (assemble (argsField? 0 fields))
  | .array items => RecordReader.finish ⟨shape, .listed items⟩ (assemble (argsItem? 0 items))
  | j => .error (j.unlike "struct TypeRef")

/-- The arguments among the fields of an object, with their place. -/
def argsField? : (place : Nat) → List (Option String × Json) → Option (Nat × Except JsonFault (List TypeRef))
  | _, [] => none
  | place, (key, value) :: fields =>
    if key = some "args" then some (place, listOfJson value) else argsField? (place + 1) fields

/-- The arguments among the items of a list, with their place. -/
def argsItem? : (place : Nat) → List Json → Option (Nat × Except JsonFault (List TypeRef))
  | _, [] => none
  | place, item :: items => if place = 2 then some (place, listOfJson item) else argsItem? (place + 1) items

/-- A list of references. -/
def listOfJson : Json → Except JsonFault (List TypeRef)
  | .array items => allOfJson items
  | j => .error (j.unlike "a sequence")

/-- The references of all items. -/
def allOfJson : List Json → Except JsonFault (List TypeRef)
  | [] => .ok []
  | item :: items => do
    let r ← ofJson item
    let rs ← allOfJson items
    .ok (r :: rs)

end

end TypeRef

end ContractStubs
