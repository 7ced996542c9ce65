import ContractStubs.Declaration.Basic
import ContractStubs.TypeRef.Json

/-!
# Declarations in JSON

Lists, texts and optional fields are left out where they are empty. A type expression is its text.
-/

namespace ContractStubs

namespace TypeExpr

/-- The text of a type expression. -/
def toJson (t : TypeExpr) : Json := .string t.toText

/-- The type expression of a text. -/
def ofJson (j : Json) : Except JsonFault TypeExpr := j.asText.map parse

end TypeExpr

namespace DeclarationKind

/-- The written kinds. -/
def words : List (String × DeclarationKind) :=
  [("class", .classType), ("record", .recordClass), ("record_struct", .recordStruct), ("struct", .structType),
   ("interface", .interfaceType), ("enum", .enumType)]

/-- The kind as it is written. -/
def toWord : DeclarationKind → String
  | .classType => "class"
  | .recordClass => "record"
  | .recordStruct => "record_struct"
  | .structType => "struct"
  | .interfaceType => "interface"
  | .enumType => "enum"

/-- The kind that a document denotes, whatever the case of its letters. -/
def ofJson : Json → Except JsonFault DeclarationKind := Json.asWord words

end DeclarationKind

namespace Container

/-- The record of a container. -/
def toJson (c : Container) : Json :=
  .ofFields ([("name", .string c.name), ("kind", .string c.kind.toWord)]
    ++ listField "type_parameters" (c.typeParameters.map .string))

/-- The record type. -/
def shape : RecordShape := ⟨"ContainingType", ["name", "kind", "type_parameters"]⟩

/-- The container that a document denotes. -/
def ofJson : Json → Except JsonFault Container :=
  Json.asRecord shape fun r =>
    Container.mk <$> r.required "name" Json.asText <*> r.required "kind" DeclarationKind.ofJson
      <*> r.withDefault "type_parameters" (Json.asList Json.asText) []

end Container

namespace Attribute

/-- The record of an attribute. -/
def toJson (a : Attribute) : Json :=
  .ofFields ([("name", .string a.name)] ++ listField "type_arguments" (a.typeArguments.map TypeExpr.toJson))

/-- The record type. -/
def shape : RecordShape := ⟨"AttributeSyntax", ["name", "type_arguments"]⟩

/-- The attribute that a document denotes. -/
def ofJson : Json → Except JsonFault Attribute :=
  Json.asRecord shape fun r =>
    Attribute.mk <$> r.required "name" Json.asText
      <*> r.withDefault "type_arguments" (Json.asList TypeExpr.ofJson) []

end Attribute

namespace MemberKind

/-- The written kinds. -/
def words : List (String × MemberKind) :=
  [("method", .method), ("operator", .operator), ("conversion", .conversion), ("constructor", .constructor),
   ("destructor", .destructor), ("property", .property), ("indexer", .indexer), ("event", .event), ("field", .field)]

/-- The kind as it is written. -/
def toWord : MemberKind → String
  | .method => "method"
  | .operator => "operator"
  | .conversion => "conversion"
  | .constructor => "constructor"
  | .destructor => "destructor"
  | .property => "property"
  | .indexer => "indexer"
  | .event => "event"
  | .field => "field"

/-- The kind that a document denotes, whatever the case of its letters. -/
def ofJson : Json → Except JsonFault MemberKind := Json.asWord words

end MemberKind

namespace ParameterDeclaration

/-- The record of a parameter. -/
def toJson (p : ParameterDeclaration) : Json :=
  .ofFields ([("name", .string p.name), ("type", p.type.toJson)] ++ optionalField "modifier" (p.modifier?.map .string)
    ++ optionalField "default_value" (p.default?.map .string))

/-- The record type. -/
def shape : RecordShape := ⟨"ParameterDeclaration", ["name", "type", "modifier", "default_value"]⟩

/-- The parameter that a document denotes. -/
def ofJson : Json → Except JsonFault ParameterDeclaration :=
  Json.asRecord shape fun r =>
    ParameterDeclaration.mk <$> r.required "name" Json.asText <*> r.required "type" TypeExpr.ofJson
      <*> r.optionalDefault "modifier" Json.asText <*> r.optionalDefault "default_value" Json.asText

end ParameterDeclaration

namespace MemberDeclaration

/-- The record of a member. -/
def toJson (m : MemberDeclaration) : Json :=
  .ofFields ([("name", .string m.name), ("kind", .string m.kind.toWord), ("is_static", .bool m.isStatic)]
    ++ listField "type_parameters" (m.typeParameters.map .string)
    ++ optionalField "return_type" (m.returnType?.map TypeExpr.toJson)
    ++ listField "parameters" (m.parameters.map ParameterDeclaration.toJson))

/-- The record type. -/
def shape : RecordShape :=
  ⟨"MemberDeclaration", ["name", "kind", "is_static", "type_parameters", "return_type", "parameters"]⟩

/-- The member that a document denotes. -/
def ofJson : Json → Except JsonFault MemberDeclaration :=
  Json.asRecord shape fun r =>
    MemberDeclaration.mk <$> r.required "name" Json.asText <*> r.required "kind" MemberKind.ofJson
      <*> r.withDefault "is_static" Json.asBool false <*> r.withDefault "type_parameters" (Json.asList Json.asText) []
      <*> r.optionalDefault "return_type" TypeExpr.ofJson
      <*> r.withDefault "parameters" (Json.asList ParameterDeclaration.ofJson) []

end MemberDeclaration

namespace Declaration

/-- The record of a declaration. -/
def toJson (d : Declaration) : Json :=
  .ofFields ([("id", .ofNat d.id), ("kind", .string d.kind.toWord), ("name", .string d.name)]
    ++ optionalField "namespace" (d.namespaceName?.map .string)
    ++ listField "containing_types" (d.containers.map Container.toJson)
    ++ listField "type_parameters" (d.typeParameters.map .string)
    ++ listField "attributes" (d.attributes.map Attribute.toJson)
    ++ listField "base_types" (d.baseTypes.map TypeExpr.toJson)
    ++ listField "members" (d.members.map MemberDeclaration.toJson)
    ++ listField "usings" (d.usings.map .string) ++ textField "text" d.text
    ++ optionalField "file" (d.file?.map .string) ++ [("malformed", .bool d.malformed)])

/-- The record type. -/
def shape : RecordShape :=
  ⟨"TypeDeclaration", ["id", "kind", "name", "namespace", "containing_types", "type_parameters", "attributes",
    "base_types", "members", "usings", "text", "file", "malformed"]⟩

/-- The declaration that a document denotes. -/
def ofJson : Json → Except JsonFault Declaration :=
  Json.asRecord shape fun r =>
    Declaration.mk <$> r.withDefault "id" Json.asCount 0 <*> r.required "kind" DeclarationKind.ofJson
      <*> r.required "name" Json.asText <*> r.optionalDefault "namespace" Json.asText
      <*> r.withDefault "containing_types" (Json.asList Container.ofJson) []
      <*> r.withDefault "type_parameters" (Json.asList Json.asText) []
      <*> r.withDefault "attributes" (Json.asList Attribute.ofJson) []
      <*> r.withDefault "base_types" (Json.asList TypeExpr.ofJson) []
      <*> r.withDefault "members" (Json.asList MemberDeclaration.ofJson) []
      <*> r.withDefault "usings" (Json.asList Json.asText) [] <*> r.withDefault "text" Json.asText ""
      <*> r.optionalDefault "file" Json.asPath <*> r.withDefault "malformed" Json.asBool false

end Declaration

namespace Model

/-- The record of a model. -/
def toJson (m : Model) : Json := .ofFields [("declarations", .array (m.declarations.map Declaration.toJson))]

/-- The record type. -/
def shape : RecordShape := ⟨"SourceModel", ["declarations"]⟩

/-- The model that a document denotes. Ids in it are not trusted. -/
def ofJson (j : Json) : Except JsonFault Model :=
  (j.asRecord shape fun r => r.withDefault "declarations" (Json.asList Declaration.ofJson) []).map ofList

end Model

end ContractStubs
