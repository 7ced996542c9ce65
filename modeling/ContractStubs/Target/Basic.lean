import ContractStubs.Declaration.Json

/-!
# Target types

A declared type that stubs are generated for, all its declarations taken together.
-/

namespace ContractStubs

/-- A type that stubs are generated for. -/
structure TargetType where
  namespaceName? : Option String
  containers : List Container
  name : String
  typeParameters : List String
  kind : DeclarationKind
  /-- The ids of its declarations. -/
  declarations : List Nat
  deriving DecidableEq, Repr, Inhabited

namespace TargetType

/-- The name with the type parameters. -/
def displayName (t : TargetType) : String := withTypeParameters t.name t.typeParameters

/-- The name behind the namespace and the enclosing types. It identifies the type. -/
def qualifiedName (t : TargetType) : String :=
  ".".intercalate (t.namespaceName?.toList ++ t.containers.map Container.displayName ++ [t.displayName])

/-- A character of a file name: square brackets stand for angle brackets. -/
def fileNameChar (c : Char) : Char := if c = '<' then '[' else if c = '>' then ']' else c

/-- The name of the file that is generated for the type. -/
def fileName (t : TargetType) (outputExtension : String) : String :=
  String.ofList (t.qualifiedName.toList.map fileNameChar) ++ outputExtension

/-- The record of a target. -/
def toJson (t : TargetType) : Json :=
  .ofFields ([("namespace", match t.namespaceName? with | some ns => .string ns | none => .null)]
    ++ listField "containing_types" (t.containers.map Container.toJson) ++ [("name", .string t.name)]
    ++ listField "type_parameters" (t.typeParameters.map .string)
    ++ [("kind", .string t.kind.toWord), ("declarations", .array (t.declarations.map Json.ofNat))])

/-- The record type. -/
def shape : RecordShape :=
  ⟨"ResolvedType", ["namespace", "containing_types", "name", "type_parameters", "kind", "declarations"]⟩

/-- The target that a document denotes. -/
def ofJson : Json → Except JsonFault TargetType :=
  Json.asRecord shape fun r =>
    TargetType.mk <$> r.optional "namespace" Json.asText
      <*> r.withDefault "containing_types" (Json.asList Container.ofJson) [] <*> r.required "name" Json.asText
      <*> r.withDefault "type_parameters" (Json.asList Json.asText) [] <*> r.required "kind" DeclarationKind.ofJson
      <*> r.required "declarations" (Json.asList Json.asCount)

end TargetType

end ContractStubs
