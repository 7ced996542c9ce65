import ContractStubs.Config.Basic
import ContractStubs.Digest.Md5
import ContractStubs.Request.Basic

/-!
# Fingerprints

The digest of all that a generated text depends on: the settings, the declarations of the type, and the declarations of
the interfaces that can be reached from its targets. Bases are followed by simple name and number of arguments alone,
so everything that binding could pick is among them.
-/

namespace ContractStubs

/-- The settings that a generated text depends on. -/
def Config.fingerprintParts (c : Config) : List String :=
  ["marker=" ++ c.markerSought.shortName, "extension=" ++ c.outputExtension,
    "sync=" ++ (if c.allowSynchronousMembers then "true" else "false")]
    ++ c.knownTypes.map fun (name, ns) => "known=" ++ name ++ "=" ++ ns

namespace Declaration

/-- The text of a declaration, or where there is none the document of what it declares. -/
def body (d : Declaration) : String :=
  if d.text = "" then
    Json.toCompact (.array [.array (d.members.map MemberDeclaration.toJson), .array (d.baseTypes.map TypeExpr.toJson),
      .array (d.attributes.map Attribute.toJson)])
  else d.text

/-- What a fingerprint takes from a declaration. -/
def fingerprintPart (d : Declaration) : String :=
  d.namespaceName?.getD "" ++ "|" ++ ",".intercalate d.usings ++ "|" ++ d.body

/-- The declaration is an interface with the name and the number of parameters that a base is written with. -/
def isNamedBy (d : Declaration) (base : TypeExpr) : Bool :=
  d.kind == .interfaceType && d.name == base.simpleName && d.typeParameters.length == base.arity

end Declaration

/-- The interfaces that the bases of a declaration may be, the last one first. -/
def possibleBases (declarations : List Declaration) (d : Declaration) : List Declaration :=
  (d.baseTypes.flatMap fun base => declarations.filter fun e => e.isNamedBy base).reverse

/-- The declarations that can be reached from those on a stack, each id once, what was put there last coming first. The
fuel is the number of declarations that can still come. -/
def reached (declarations : List Declaration) :
    (fuel : Nat) → (visited : List Nat) → (stack : List Declaration) → List Declaration
  | 0, _, _ => []
  | fuel + 1, visited, stack =>
    match stack.dropWhile fun d => visited.contains d.id with
    | [] => []
    | d :: stack => d :: reached declarations fuel (d.id :: visited) (possibleBases declarations d ++ stack)

/-- The declarations that can be reached from some, the last one first. -/
def reachedFrom (declarations starts : List Declaration) : List Declaration :=
  reached declarations (starts.length + declarations.length) [] starts.reverse

namespace Provider

/-- The declarations with these ids. -/
def withIds (p : Provider) (ids : List Nat) : List Declaration := ids.filterMap fun id => p.declarations[id]?

/-- All that the text for a request depends on. -/
def fingerprintParts (p : Provider) (options : List String) (r : StubRequest) : List String :=
  options ++ (p.withIds r.target.declarations).map Declaration.fingerprintPart
    ++ (reachedFrom p.declarations (r.interfaces.flatMap p.declarationsOf)).map Declaration.fingerprintPart

end Provider

/-- The bytes of some parts; a zero byte ends each. -/
def partBytes (parts : List String) : List UInt8 := parts.flatMap fun part => textBytes part ++ [0]

/-- The digest of some parts. -/
def fingerprint (parts : List String) : String := md5 (partBytes parts)

/-- The fingerprint of a request. -/
def Provider.fingerprintOf (p : Provider) (options : List String) (r : StubRequest) : String :=
  fingerprint (p.fingerprintParts options r)

end ContractStubs
