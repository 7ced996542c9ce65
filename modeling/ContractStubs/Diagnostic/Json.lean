import ContractStubs.Diagnostic.Basic
import ContractStubs.TypeRef.Json

/-!
# Diagnostics in JSON
-/

namespace ContractStubs

namespace DiagnosticScope

/-- The variant of a scope. -/
def toJson : DiagnosticScope → Json
  | .type => .string "type"
  | .member name => .ofFields [("member", .string name)]

/-- The scope that a document denotes. -/
def ofJson : Json → Except JsonFault DiagnosticScope :=
  Json.asVariant [("type", .plain .type), ("member", .carrying fun j => j.asText.map .member)]

end DiagnosticScope

namespace Diagnostic

/-- The record of a diagnostic. -/
def toJson (d : Diagnostic) : Json :=
  .ofFields ([("scope", d.scope.toJson), ("message", .string d.message), ("trace", .ofStrings d.trace)]
    ++ optionalField "fallback_stub" (d.fallbackStub?.map .string))

/-- The record type. -/
def shape : RecordShape := ⟨"Diagnostic", ["scope", "message", "trace", "fallback_stub"]⟩

/-- The diagnostic that a document denotes. -/
def ofJson : Json → Except JsonFault Diagnostic :=
  Json.asRecord shape fun r =>
    Diagnostic.mk <$> r.required "scope" DiagnosticScope.ofJson <*> r.required "message" Json.asText
      <*> r.withDefault "trace" (Json.asList Json.asText) [] <*> r.optionalDefault "fallback_stub" Json.asText

end Diagnostic

end ContractStubs
