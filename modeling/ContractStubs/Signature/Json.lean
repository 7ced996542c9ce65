import ContractStubs.Namespace.Json
import ContractStubs.Signature.Basic
import ContractStubs.TypeRef.Json

/-!
# Signatures in JSON
-/

namespace ContractStubs

namespace Parameter

/-- The record of a parameter. -/
def toJson (p : Parameter) : Json :=
  .ofFields ([("name", .string p.name), ("type", p.type.toJson)]
    ++ optionalField "modifier" (p.modifier?.map .string) ++ optionalField "default_value" (p.default?.map .string))

/-- The record type. -/
def shape : RecordShape := ⟨"Parameter", ["name", "type", "modifier", "default_value"]⟩

/-- The parameter that a document denotes. -/
def ofJson : Json → Except JsonFault Parameter :=
  Json.asRecord shape fun r =>
    Parameter.mk <$> r.required "name" Json.asText <*> r.required "type" TypeRef.ofJson
      <*> r.optional "modifier" Json.asText <*> r.optional "default_value" Json.asText

end Parameter

namespace ResultShape

/-- The variant of a result. -/
def toJson : ResultShape → Json
  | .nothing => .string "void_like"
  | .value type => .ofFields [("value", type.toJson)]
  | .awaitable none => .ofFields [("async_value", .null)]
  | .awaitable (some type) => .ofFields [("async_value", type.toJson)]

/-- The result that a document denotes. -/
def ofJson : Json → Except JsonFault ResultShape :=
  Json.asVariant [("void_like", .plain .nothing),
    ("value", .carrying fun j => (TypeRef.ofJson j).map .value),
    ("async_value", .carrying fun j => (j.asOption TypeRef.ofJson).map .awaitable)]

end ResultShape

namespace Signature

/-- The record of a signature. -/
def toJson (s : Signature) : Json :=
  .ofFields ([("name", .string s.name)] ++ listField "type_parameters" (s.typeParameters.map .string)
    ++ [("parameters", .array (s.parameters.map Parameter.toJson)), ("return_type", s.returnType.toJson),
      ("result", s.result.toJson), ("declaring_interface", s.declaringInterface.toJson),
      ("namespaces", s.namespaces.toJson)])

/-- The record type. -/
def shape : RecordShape :=
  ⟨"Signature", ["name", "type_parameters", "parameters", "return_type", "result", "declaring_interface",
    "namespaces"]⟩

/-- The signature that a document denotes. -/
def ofJson : Json → Except JsonFault Signature :=
  Json.asRecord shape fun r =>
    Signature.mk <$> r.required "name" Json.asText <*> r.withDefault "type_parameters" (Json.asList Json.asText) []
      <*> r.required "parameters" (Json.asList Parameter.ofJson) <*> r.required "return_type" TypeRef.ofJson
      <*> r.required "result" ResultShape.ofJson <*> r.required "declaring_interface" TypeRef.ofJson
      <*> r.required "namespaces" NamespaceSet.ofJson

end Signature

end ContractStubs
