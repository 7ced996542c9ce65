import ContractStubs.Contract.Basic
import ContractStubs.Program.Provider

/-!
# The contract of an interface

Each method of the interface gets a signature, or a diagnostic with the header of a stub that may take the place of the
missing one. An interface whose members cannot be told gets a diagnostic as a whole.
-/

namespace ContractStubs

namespace InterfaceMember

/-- The return type, if one was written. -/
def writtenReturnType? (m : InterfaceMember) : Option TypeRef := m.returnType?.filter fun t => !t.isMissing

/-- The signature of a method, if all of its types were written and its result is understood. -/
def signature (m : InterfaceMember) (allowSynchronous : Bool) : Except StubError Signature :=
  match m.writtenReturnType? with
  | none => .error (.invalidMember m.name "the return type is missing")
  | some returnType =>
    match m.parameters.find? fun p => p.type.isMissing with
    | some p => .error (.invalidMember m.name ("parameter " ++ p.name ++ " has no type"))
    | none =>
      (ResultShape.ofReturnType m.name returnType allowSynchronous).map fun result =>
        .ofTypes m.name m.typeParameters m.parameters returnType result m.declaringInterface

/-- The header of a stub with the declared return type, if all types were written. -/
def fallbackStub? (m : InterfaceMember) : Option String :=
  match m.writtenReturnType? with
  | none => none
  | some returnType =>
    if m.parameters.any fun p => p.type.isMissing then none
    else some (returnType.toText ++ " " ++ m.declaringInterface.toText ++ "."
      ++ withTypeParameters m.name m.typeParameters ++ "(" ++ commaSeparated (m.parameters.map Parameter.toText) ++ ")")

/-- What is wrong with a method. -/
def diagnostic (m : InterfaceMember) (cause : StubError) (frame : String) : Diagnostic :=
  { Diagnostic.ofMember m.qualifiedName cause with fallbackStub? := m.fallbackStub? }.withFrame frame

/-- The signature of a method, or what is wrong with it. -/
def outcome (m : InterfaceMember) (allowSynchronous : Bool) (frame : String) : Except Diagnostic Signature :=
  (m.signature allowSynchronous).mapError fun cause => m.diagnostic cause frame

end InterfaceMember

/-- The step that a contract's diagnostics name. -/
def introspectFrame (interface : TypeRef) : String := "introspect " ++ interface.qualifiedText

namespace Provider

/-- The contract of an interface, or why it has none. -/
def contractOf (p : Provider) (allowSynchronous : Bool) (interface : TypeRef) : Except Diagnostic Contract :=
  match p.members interface with
  | .error cause => .error ((Diagnostic.ofType cause).withFrame (introspectFrame interface))
  | .ok members =>
    let frame := introspectFrame interface
    .ok ⟨interface, (members.filter InterfaceMember.isInstanceMethod).map fun m => m.outcome allowSynchronous frame⟩

end Provider

end ContractStubs
