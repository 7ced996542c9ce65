import ContractStubs.Diagnostic.Basic
import ContractStubs.Signature.Basic

/-!
# Contracts

What an interface asks for: a signature for each member that can have a stub, a diagnostic for each that cannot.

The return type of a member says what a call comes to. Every member counts as asynchronous: a named type or keyword is
what one waits for, and its one type argument is the value that comes of it. Where synchronous members are allowed,
keywords and types of any other shape are values.
-/

namespace ContractStubs

/-- The members of an interface, those it inherits included. -/
structure Contract where
  interface : TypeRef
  members : List (Except Diagnostic Signature)
  deriving Repr, Inhabited

namespace Contract

/-- The members that can have a stub. -/
def signatures (c : Contract) : List Signature :=
  c.members.filterMap fun
    | .ok s => some s
    | .error _ => none

/-- What is wrong with the other members. -/
def diagnostics (c : Contract) : List Diagnostic :=
  c.members.filterMap fun
    | .ok _ => none
    | .error d => some d

/-- The namespaces that the interface and its signatures touch. -/
def namespaces (c : Contract) : NamespaceSet :=
  .ofList (c.interface.namespaces ++ c.signatures.flatMap fun s => s.namespaces.names)

end Contract

/-! ## What a return type means -/

namespace ResultShape

/-- What one waits for, by its type arguments. -/
def ofArguments (method : String) (returnType : TypeRef) : Except StubError ResultShape :=
  match returnType.args with
  | [] => .ok (.awaitable none)
  | [arg] => .ok (.awaitable (some arg))
  | _ => .error (.ambiguousResult method returnType.toText)

/-- What a method with the return type gives back. -/
def ofReturnType (method : String) (returnType : TypeRef) (allowSynchronous : Bool) : Except StubError ResultShape :=
  if returnType.isNamedShape && !(returnType.kind == .keyword && allowSynchronous) then ofArguments method returnType
  else if !allowSynchronous then .error (.notAwaitable method)
  else if returnType.isVoid then .ok .nothing
  else .ok (.value returnType)

end ResultShape

end ContractStubs
