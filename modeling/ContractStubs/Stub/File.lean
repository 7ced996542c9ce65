import ContractStubs.Diagnostic.Json

/-!
# Stub files

The text generated for one type, with the diagnostics about what it had to leave out.
-/

namespace ContractStubs

/-- The generated text for one type. -/
structure StubFile where
  /-- The name under which the text is handed on. -/
  identifier : String
  /-- The qualified name of the type. -/
  typeName : String
  text : String
  diagnostics : List Diagnostic
  deriving DecidableEq, Repr, Inhabited

namespace StubFile

/-- Nothing was left out. -/
def isSuccess (f : StubFile) : Bool := f.diagnostics.isEmpty

/-- The text holds no stub at all. -/
def isDegenerate (f : StubFile) : Bool := f.diagnostics.any Diagnostic.isTypeLevel

/-- The sign for a file in a listing. -/
def statusMark (f : StubFile) : String := if f.isSuccess then "✅" else if f.isDegenerate then "❌" else "⚠️"

/-- The record of a file. -/
def toJson (f : StubFile) : Json :=
  .ofFields ([("identifier", .string f.identifier), ("type_name", .string f.typeName), ("text", .string f.text)]
    ++ listField "diagnostics" (f.diagnostics.map Diagnostic.toJson))

/-- The record type. -/
def shape : RecordShape := ⟨"GeneratedUnit", ["identifier", "type_name", "text", "diagnostics"]⟩

/-- The file that a document denotes. -/
def ofJson : Json → Except JsonFault StubFile :=
  Json.asRecord shape fun r =>
    StubFile.mk <$> r.required "identifier" Json.asText <*> r.required "type_name" Json.asText
      <*> r.required "text" Json.asText <*> r.withDefault "diagnostics" (Json.asList Diagnostic.ofJson) []

end StubFile

end ContractStubs
