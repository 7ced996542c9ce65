import ContractStubs.Declaration.Kind
import ContractStubs.TypeExpr.Parser
import ContractStubs.TypeExpr.Printer

/-!
# Declarations

The type declarations of a program as written, before any name in them is looked up. A model is the list of all of them;
the place of a declaration in it is its id.
-/

namespace ContractStubs

/-- An attribute: its name and its type arguments. -/
structure Attribute where
  name : String
  typeArguments : List TypeExpr
  deriving DecidableEq, Repr, Inhabited

namespace Attribute

/-- The attribute whose name is written like this, type arguments included. -/
def ofText (text : String) : Attribute :=
  match TypeExpr.parse text with
  | .named name args _ => ⟨name, args⟩
  | other => ⟨other.toText, []⟩

end Attribute

/-- What a member of a type is. -/
inductive MemberKind where
  | method
  | operator
  | conversion
  | constructor
  | destructor
  | property
  | indexer
  | event
  | field
  deriving DecidableEq, Repr, Inhabited

/-- A parameter as written. -/
structure ParameterDeclaration where
  name : String
  type : TypeExpr
  modifier? : Option String
  default? : Option String
  deriving DecidableEq, Repr, Inhabited

/-- A member of a type as written. -/
structure MemberDeclaration where
  name : String
  kind : MemberKind
  isStatic : Bool
  typeParameters : List String
  returnType? : Option TypeExpr
  parameters : List ParameterDeclaration
  deriving DecidableEq, Repr, Inhabited

/-- One declaration of a type; a type may have several that complete one another. -/
structure Declaration where
  id : Nat
  kind : DeclarationKind
  name : String
  namespaceName? : Option String
  /-- The enclosing types, outermost first. -/
  containers : List Container
  typeParameters : List String
  attributes : List Attribute
  baseTypes : List TypeExpr
  members : List MemberDeclaration
  /-- The namespaces whose names are in scope. -/
  usings : List String
  /-- The text of the declaration, empty where it did not come from a source file. -/
  text : String
  file? : Option String
  /-- The declaration could not be understood. -/
  malformed : Bool
  deriving DecidableEq, Repr, Inhabited

namespace Declaration

/-- The name behind those of the enclosing types. -/
def nestedName (d : Declaration) : String := ".".intercalate (d.containers.map (·.name) ++ [d.name])

end Declaration

/-- The declarations of a program. -/
structure Model where
  declarations : List Declaration
  deriving DecidableEq, Repr, Inhabited

namespace Model

/-- The declarations numbered by their places from `next` on. -/
def number : (next : Nat) → List Declaration → List Declaration
  | _, [] => []
  | next, d :: ds => { d with id := next } :: number (next + 1) ds

/-- The model of some declarations; ids they may have are replaced by their places. -/
def ofList (declarations : List Declaration) : Model := ⟨number 0 declarations⟩

/-- The declaration with an id. -/
def get? (m : Model) (id : Nat) : Option Declaration := m.declarations[id]?

/-- The number of declarations. -/
def size (m : Model) : Nat := m.declarations.length

end Model

end ContractStubs
