import ContractStubs.Contract.Introspect
import ContractStubs.Layout.Page
import ContractStubs.Request.Basic
import ContractStubs.Stub.File

/-!
# The text of a stub file

The text for one request and the contracts of its interfaces: using lines, the namespace, the enclosing types, and in
the type a stub for each member, or a comment that says why there is none. Where an interface has no contract, or the
interfaces cannot stand in a list of base types, the text is nothing but comments.
-/

namespace ContractStubs

/-- A generated text and what it had to leave out. -/
structure StubSource where
  text : String
  diagnostics : List Diagnostic
  deriving DecidableEq, Repr, Inhabited

/-- The step that a text's diagnostics name. -/
def synthesizeFrame (r : StubRequest) : String := "synthesize " ++ r.qualifiedName

/-- The reference can stand in a list of base types. -/
def TypeRef.isBase (r : TypeRef) : Bool := (r.kind == .named || r.kind == .unresolved) && r.suffix == "" && r.name != ""

/-- The list of base types behind the name of a type. -/
def implementsClause (interfaces : List TypeRef) : Except StubError String :=
  match interfaces.find? fun r => !r.isBase with
  | some r => .error (.invalidImplements (r.toText ++ " cannot be used as a base interface"))
  | none => .ok (if interfaces.isEmpty then "" else " : " ++ commaSeparated (interfaces.map TypeRef.toText))

namespace Signature

/-- The header of the method that implements a signature, apart from `async`. -/
def header (s : Signature) : String :=
  s.returnType.toText ++ " " ++ s.declaringInterface.toText ++ "." ++ s.methodName ++ "(" ++ s.parameterList ++ ")"

/-- The header of the stub. -/
def stubHeader (s : Signature) : String := (if s.result.isAsync then "async " else "") ++ s.header

/-- The only line in the body of the stub. -/
def stubBody (s : Signature) : String := if s.result.carriesValue then "return default;" else "return;"

end Signature

namespace Page

/-- The page with a method of one line. -/
def writeMethod (p : Page) (header body : String) : Page := ((p.openBlock header).write body).closeBlock

/-- The page with the stub for a member, or with the comment about it and the stub that takes its place. -/
def writeMember (p : Page) : Except Diagnostic Signature → Page
  | .ok s => p.writeMethod s.stubHeader s.stubBody
  | .error d =>
    let p := p.writeAll d.commentLines
    match d.fallbackStub? with
    | some header => p.writeMethod header "return;"
    | none => p

/-- The page with all members, an empty line between one and the next. -/
def writeMembers (p : Page) : List (Except Diagnostic Signature) → Page
  | [] => p
  | m :: ms => ms.foldl (fun p m => p.writeBlank.writeMember m) (p.writeMember m)

/-- The page with the comments about failures, an empty line between one and the next. -/
def writeFailures (p : Page) : List Diagnostic → Page
  | [] => p
  | d :: ds => ds.foldl (fun p d => p.writeBlank.writeAll d.commentLines) (p.writeAll d.commentLines)

end Page

/-- The header of a part of a type. -/
def partialHeader (kind : DeclarationKind) (name : String) : String := "partial " ++ kind.keyword ++ " " ++ name

namespace StubRequest

/-- The page up to the opening brace of the type. -/
def openType (r : StubRequest) (clause : String) : Page :=
  let p := r.target.namespaceName?.elim Page.empty fun ns => (Page.empty.write ("namespace " ++ ns ++ ";")).writeBlank
  let p := r.target.containers.foldl (fun p c => p.openBlock (partialHeader c.kind c.displayName)) p
  p.openBlock (partialHeader r.target.kind r.target.displayName ++ clause)

/-- A member whose diagnostic, if it is one, names the text that it is left out of. -/
def framed (r : StubRequest) (m : Except Diagnostic Signature) : Except Diagnostic Signature :=
  m.mapError fun d => d.withFrame (synthesizeFrame r)

end StubRequest

/-- The namespaces that a text with these contracts has to use. -/
def usedNamespaces (contracts : List Contract) : NamespaceSet :=
  .ofList (contracts.flatMap fun c =>
    c.namespaces.names ++ c.signatures.flatMap fun s => s.declaringInterface.namespaces)

/-- The lines before everything else. -/
def headLines (namespaces : NamespaceSet) : List String :=
  ["#nullable enable", ""] ++ (if namespaces.isEmpty then [] else namespaces.usingLines ++ [""])

namespace StubSource

/-- The text that is nothing but comments about failures. -/
def ofFailures (failures : List Diagnostic) : StubSource := ⟨(Page.empty.writeFailures failures).toText, failures⟩

/-- The text with the stubs for all contracts. -/
def ofContracts (r : StubRequest) (clause : String) (contracts : List Contract) : StubSource :=
  let members := (contracts.flatMap (·.members)).map r.framed
  ⟨((((r.openType clause).writeMembers members).closeAll).prepend (headLines (usedNamespaces contracts))).toText,
    members.filterMap fun | .ok _ => none | .error d => some d⟩

/-- The text for a request, given the contract of each of its interfaces or why there is none. -/
def ofRequest (r : StubRequest) (outcomes : List (Except Diagnostic Contract)) : StubSource :=
  let failures := outcomes.filterMap fun | .ok _ => none | .error d => some (d.withFrame (synthesizeFrame r))
  if !failures.isEmpty then ofFailures failures
  else match implementsClause r.interfaces with
    | .error cause => ofFailures [(Diagnostic.ofType cause).withFrame (synthesizeFrame r)]
    | .ok clause => ofContracts r clause (outcomes.filterMap Except.toOption)

end StubSource

namespace Provider

/-- The text for a request. -/
def stubSource (p : Provider) (allowSynchronous : Bool) (r : StubRequest) : StubSource :=
  .ofRequest r (r.interfaces.map (p.contractOf allowSynchronous))

/-- The file for a request. -/
def stubFile (p : Provider) (allowSynchronous : Bool) (outputExtension : String) (r : StubRequest) : StubFile :=
  let source := p.stubSource allowSynchronous r
  ⟨r.target.fileName outputExtension, r.qualifiedName, source.text, source.diagnostics⟩

end Provider

end ContractStubs
