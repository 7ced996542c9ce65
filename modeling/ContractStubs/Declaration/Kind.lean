import ContractStubs.Signature.Basic

/-!
# Kinds of declarations

The keywords that declare a type, and the types that enclose a nested one.
-/

namespace ContractStubs

/-- What a declaration declares. -/
inductive DeclarationKind where
  | classType
  | recordClass
  | recordStruct
  | structType
  | interfaceType
  | enumType
  deriving DecidableEq, Repr, Inhabited

namespace DeclarationKind

/-- The marker may be attached to this kind. -/
def acceptsMarker : DeclarationKind → Bool
  | .classType | .recordClass | .recordStruct | .structType => true
  | .interfaceType | .enumType => false

/-- The keywords in front of the declared name. -/
def keyword : DeclarationKind → String
  | .classType => "class"
  | .recordClass => "record"
  | .recordStruct => "record struct"
  | .structType => "struct"
  | .interfaceType => "interface"
  | .enumType => "enum"

end DeclarationKind

/-- A type that encloses a nested declaration. -/
structure Container where
  name : String
  kind : DeclarationKind
  typeParameters : List String
  deriving DecidableEq, Repr, Inhabited

/-- The name of a container with its type parameters. -/
def Container.displayName (c : Container) : String := withTypeParameters c.name c.typeParameters

end ContractStubs
