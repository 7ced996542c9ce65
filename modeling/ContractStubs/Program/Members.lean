import ContractStubs.Program.Basic

/-!
# Members of interfaces

The members of an interface are those of all its declarations, then those of its bases in the order in which they are
written, each constructed interface only once. An interface whose bases construct ever new interfaces has no list of
members, so the search goes to a given depth and has no answer where that is not enough.
-/

namespace ContractStubs

namespace Program

/-- The declarations of an interface, or why it is none. -/
def interfaceDeclarations (p : Program) (r : TypeRef) : Except StubError (List Declaration) :=
  match r.kind with
  | .keyword | .typeParameter | .tuple => .error (.notAnInterface r.toText)
  | .unresolved | .verbatim => .error (.unresolvedInterface r.toText)
  | .named =>
    let ds := p.declarationsOf r
    if ds.isEmpty then .error (.unresolvedInterface r.toText)
    else if ds.any fun d => d.kind != .interfaceType then .error (.notAnInterface r.toText)
    else .ok ds

/-- What the type parameters of a constructed interface stand for: its arguments, under the names that its first
declaration gives to the parameters. Of two parameters with one name the later counts. -/
def argumentOf? (ds : List Declaration) (r : TypeRef) (parameter : String) : Option TypeRef :=
  ((ds.head?.elim [] Declaration.typeParameters).zip r.args).reverse.lookup parameter

/-- A type expression in a scope, the parameters of a constructed interface being replaced. -/
def typeIn (p : Program) (scope : Scope) (ds : List Declaration) (r : TypeRef) (t : TypeExpr) : TypeRef :=
  (p.binder.bind scope t).substitute (argumentOf? ds r)

/-- A member of one declaration of an interface. -/
def memberOf (p : Program) (ds : List Declaration) (r : TypeRef) (d : Declaration) (m : MemberDeclaration) :
    InterfaceMember :=
  let type := p.typeIn ((Scope.ofDeclaration d).withTypeParameters m.typeParameters) ds r
  { name := m.name
    kind := m.kind
    isStatic := m.isStatic
    typeParameters := m.typeParameters
    returnType? := m.returnType?.map type
    parameters := m.parameters.map fun q => ⟨q.name, type q.type, q.modifier?, q.default?⟩
    declaringInterface := r }

/-- The members that an interface itself declares. -/
def ownMembers (p : Program) (ds : List Declaration) (r : TypeRef) : List InterfaceMember :=
  ds.flatMap fun d => d.members.map (p.memberOf ds r d)

/-- The bases of an interface. -/
def basesOf (p : Program) (ds : List Declaration) (r : TypeRef) : List TypeRef :=
  ds.flatMap fun d => d.baseTypes.map (p.typeIn (Scope.ofDeclaration d) ds r)

/-- The members found so far and the interfaces they were looked for in. -/
structure Harvest where
  visited : List String
  found : List InterfaceMember
  deriving Repr, Inhabited

namespace Harvest

/-- Nothing was looked for yet. -/
def start : Harvest := ⟨[], []⟩

/-- One more interface was visited and these members found. -/
def add (h : Harvest) (key : String) (members : List InterfaceMember) : Harvest :=
  ⟨key :: h.visited, h.found ++ members⟩

end Harvest

/-- The harvest with the members of an interface, which must be one. A base that is none, or that cannot be told, adds
nothing. -/
def gather (p : Program) : (depth : Nat) → TypeRef → Harvest → Option (Except StubError Harvest)
  | 0, _, _ => none
  | depth + 1, r, h =>
    match p.interfaceDeclarations r with
    | .error cause => some (.error cause)
    | .ok ds =>
      if h.visited.contains r.qualifiedText then some (.ok h)
      else
        ((p.basesOf ds r).foldlM (fun h base => (gather p depth base h).map fun outcome => outcome.toOption.getD h)
          (h.add r.qualifiedText (p.ownMembers ds r))).map .ok

/-- The members of an interface, if the search comes to an end within a depth. -/
def membersWithin? (p : Program) (depth : Nat) (r : TypeRef) : Option (Except StubError (List InterfaceMember)) :=
  (p.gather depth r .start).map fun outcome => outcome.map (·.found)

/-- The answers about a program, interfaces being searched to a given depth. Where that is not enough the answer says so,
and nothing else does. -/
def provider (p : Program) (depth : Nat) : Provider where
  declarations := p.model.declarations
  target? := p.target?
  markerUses? := p.markerUses?
  members r := (p.membersWithin? depth r).getD (.error (.unfinished r.toText))
  declarationsOf := p.declarationsOf

/-- How deep bases are searched: deeper than bases are nested in any program that people write. -/
def searchDepth : Nat := 4096

end Program

end ContractStubs
