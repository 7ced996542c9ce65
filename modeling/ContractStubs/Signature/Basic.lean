import ContractStubs.Namespace.Set
import ContractStubs.TypeRef.Basic

/-!
# Signatures

A member of an interface after its types were looked up: what a stub for it has to declare.
-/

namespace ContractStubs

/-- A parameter whose type was looked up. -/
structure Parameter where
  name : String
  type : TypeRef
  modifier? : Option String
  default? : Option String
  deriving DecidableEq, Repr, Inhabited

namespace Parameter

/-- The parameter as it stands in a parameter list. -/
def toText (p : Parameter) : String :=
  (match p.modifier? with | some m => m ++ " " | none => "")
    ++ p.type.toText ++ " " ++ p.name
    ++ (match p.default? with | some value => " = " ++ value | none => "")

end Parameter

/-- What a call of a member gives back. -/
inductive ResultShape where
  /-- Nothing, at once. -/
  | nothing
  /-- A value, at once. -/
  | value (type : TypeRef)
  /-- Something to wait for, with or without a value. -/
  | awaitable (type? : Option TypeRef)
  deriving DecidableEq, Repr, Inhabited

namespace ResultShape

/-- The result has to be waited for. -/
def isAsync : ResultShape → Bool
  | .awaitable _ => true
  | _ => false

/-- A value comes back, at once or later. -/
def carriesValue : ResultShape → Bool
  | .value _ | .awaitable (some _) => true
  | _ => false

end ResultShape

/-- A member of an interface with everything a stub needs. -/
structure Signature where
  name : String
  typeParameters : List String
  parameters : List Parameter
  returnType : TypeRef
  result : ResultShape
  declaringInterface : TypeRef
  /-- The namespaces that the return type and the parameter types touch. -/
  namespaces : NamespaceSet
  deriving DecidableEq, Repr, Inhabited

/-- A name with type parameters in angle brackets, if there are any. -/
def withTypeParameters (name : String) : List String → String
  | [] => name
  | parameters => name ++ "<" ++ commaSeparated parameters ++ ">"

namespace Signature

/-- The signature whose namespaces are those that its types touch. -/
def ofTypes (name : String) (typeParameters : List String) (parameters : List Parameter) (returnType : TypeRef)
    (result : ResultShape) (declaringInterface : TypeRef) : Signature :=
  ⟨name, typeParameters, parameters, returnType, result, declaringInterface,
    .ofList (returnType.namespaces ++ parameters.flatMap fun p => p.type.namespaces)⟩

/-- The parameters as they stand between parentheses. -/
def parameterList (s : Signature) : String := commaSeparated (s.parameters.map Parameter.toText)

/-- The name of the method with its type parameters. -/
def methodName (s : Signature) : String := withTypeParameters s.name s.typeParameters

end Signature

end ContractStubs
