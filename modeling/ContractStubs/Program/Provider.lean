import ContractStubs.Marker.Basic
import ContractStubs.Signature.Json
import ContractStubs.Target.Basic
import ContractStubs.Diagnostic.Basic

/-!
# What a pass asks about a program

A pass over a program sees its declarations and asks four questions about them. All answers of one pass come from one
provider, so equal questions get equal answers.
-/

namespace ContractStubs

/-- A member of an interface with its types looked up. -/
structure InterfaceMember where
  name : String
  kind : MemberKind
  isStatic : Bool
  typeParameters : List String
  returnType? : Option TypeRef
  parameters : List Parameter
  /-- The interface that declares the member, which need not be the one that was asked about. -/
  declaringInterface : TypeRef
  deriving DecidableEq, Repr, Inhabited

namespace InterfaceMember

/-- A method that is called on an object. -/
def isInstanceMethod (m : InterfaceMember) : Bool := m.kind == .method && !m.isStatic

/-- The name behind that of the declaring interface. -/
def qualifiedName (m : InterfaceMember) : String := m.declaringInterface.toText ++ "." ++ m.name

/-- The record of a member. -/
def toJson (m : InterfaceMember) : Json :=
  .ofFields [("name", .string m.name), ("kind", .string m.kind.toWord), ("is_static", .bool m.isStatic),
    ("type_parameters", .ofStrings m.typeParameters), ("return_type", m.returnType?.elim .null TypeRef.toJson),
    ("parameters", .array (m.parameters.map Parameter.toJson)), ("declaring_interface", m.declaringInterface.toJson)]

end InterfaceMember

/-- The answers about one program. -/
structure Provider where
  /-- All declarations, in the order of the sources. -/
  declarations : List Declaration
  /-- The type that a declaration declares, if it can be told. -/
  target? : (id : Nat) → Option TargetType
  /-- The uses of a marker on a declaration, if there are any. -/
  markerUses? : (id : Nat) → Marker → Option (List MarkerUse)
  /-- The members of an interface, inherited ones included. -/
  members : TypeRef → Except StubError (List InterfaceMember)
  /-- The declarations of the type that is referred to. -/
  declarationsOf : TypeRef → List Declaration

end ContractStubs
