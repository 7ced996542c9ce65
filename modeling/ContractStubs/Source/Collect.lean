import ContractStubs.Source.Using
import ContractStubs.Syntax.Type

/-!
# Declarations of a file

The types of a syntax tree become declarations: each with the namespace it stands in, the types around it and the
namespaces in scope. A directive and a namespace for the rest of the file hold for the nodes behind them among the
nodes they stand with; a directive for the whole program holds for every declaration. The body of a type is looked
through for types and members and for nothing else.
-/

namespace ContractStubs

/-- What holds at a place of a file. -/
structure Surroundings where
  namespaceName? : Option String
  usings : List String
  /-- The types around the place, outermost first. -/
  containers : List Container
  deriving DecidableEq, Repr, Inhabited

namespace Surroundings

/-- The surroundings at the start of a file. -/
def outermost : Surroundings := ⟨none, [], []⟩

/-- The surroundings in a namespace. One without a name is the namespace around it. -/
def inNamespace (s : Surroundings) (name : String) : Surroundings :=
  let inner := if name.isEmpty then s.namespaceName? else match s.namespaceName? with
    | some outer => some (outer ++ "." ++ name)
    | none => some name
  ⟨inner, s.usings, []⟩

/-- The surroundings in the body of a type. -/
def inType (s : Surroundings) (container : Container) : Surroundings :=
  { s with containers := s.containers ++ [container] }

end Surroundings

/-- Some names with one more at the end, unless it is among them. -/
def addMissing (names : List String) (name : String) : List String :=
  if names.contains name then names else names ++ [name]

/-- Some names with those of others that are not among them. -/
def withMissing (names others : List String) : List String := others.foldl addMissing names

/-- The declarations of a file, and the namespaces that it brings into scope for the whole program. -/
structure Collected where
  declarations : List Declaration
  globalUsings : List String
  deriving DecidableEq, Repr, Inhabited

namespace Collected

/-- Nothing. -/
def empty : Collected := ⟨[], []⟩

/-- What two parts of a file hold, the first one first. -/
def append (a b : Collected) : Collected :=
  ⟨a.declarations ++ b.declarations, withMissing a.globalUsings b.globalUsings⟩

end Collected

/-- A declaration with more namespaces in scope. -/
def Declaration.addUsings (namespaces : List String) (d : Declaration) : Declaration :=
  { d with usings := withMissing d.usings namespaces }

/-- What a directive with this text holds, and the surroundings behind it. -/
def collectDirective (around : Surroundings) (text : String) : Collected × Surroundings :=
  match UsingDirective.ofText? text with
  | some d =>
    if d.isGlobal then (⟨[], [d.namespaceName]⟩, around)
    else (.empty, { around with usings := addMissing around.usings d.namespaceName })
  | none => (.empty, around)

/-! ## What a node is to a file -/

/-- What a node is to the reading of a file. -/
inductive NodeRole where
  /-- A directive that names a namespace. -/
  | directive
  /-- A namespace with a body. -/
  | namespaceBlock
  /-- A namespace for the rest of the file. -/
  | namespaceLine
  /-- Nodes that stand together, or that no declaration was made of. -/
  | group
  | type
  /-- Something without types and directives. -/
  | other
  deriving DecidableEq, Repr, Inhabited

/-- The kinds of nodes with a role of their own, apart from types. -/
def nodeRoles : List (String × NodeRole) :=
  [("using_directive", .directive), ("namespace_declaration", .namespaceBlock),
   ("file_scoped_namespace_declaration", .namespaceLine), ("declaration_list", .group), ("ERROR", .group)]

namespace SyntaxNode

/-- The role of a node. -/
def role (n : SyntaxNode) : NodeRole :=
  if !n.isNamed then .other
  else (nodeRoles.lookup n.kind).getD (if n.typeKind?.isSome then .type else .other)

/-- The name of a namespace. -/
def namespaceName (source : String) (n : SyntaxNode) : String := (n.field? "name").elim "" fun name =>
  withoutBlanks (name.text source)

/-- A type as one around others. -/
def container (source : String) (kind : DeclarationKind) (n : SyntaxNode) : Container :=
  ⟨n.typeName source, kind, n.typeParameterNames source⟩

/-! ## Types -/

/-- The declaration of a type, without those of the types in its body. -/
def declaration (source : String) (file? : Option String) (around : Surroundings) (kind : DeclarationKind)
    (n : SyntaxNode) : Declaration where
  id := 0
  kind
  name := n.typeName source
  namespaceName? := around.namespaceName?
  containers := around.containers
  typeParameters := n.typeParameterNames source
  attributes := n.attributes source
  baseTypes := n.baseTypes source
  members := n.bodyMembers source
  usings := around.usings
  text := n.text source
  file?
  malformed := n.typeName?.isNone || n.label.isMissing

section Types

variable (source : String) (file? : Option String)

mutual

/-- The declarations of a type and of the types in its body. An enumeration has no types in it. -/
def declarations (around : Surroundings) : SyntaxNode → List Declaration
  | .mk label children =>
    match typeKind? (.mk label children) with
    | none => []
    | some kind =>
      declaration source file? around kind (.mk label children) ::
        if kind = .enumType then []
        else bodyDeclarations (isBody children) (around.inType (container source kind (.mk label children))) children

/-- The declarations of the types in the body, which is the first of some nodes that is said to be it. -/
def bodyDeclarations (isBody : SyntaxNode → Bool) (around : Surroundings) : List SyntaxNode → List Declaration
  | [] => []
  | .mk label members :: nodes =>
    if isBody (.mk label members) then nestedDeclarations around members else bodyDeclarations isBody around nodes

/-- The declarations of the types among some nodes. -/
def nestedDeclarations (around : Surroundings) : List SyntaxNode → List Declaration
  | [] => []
  | node :: nodes =>
    (if node.isNamed then node.declarations around else []) ++ nestedDeclarations around nodes

end

end Types

/-! ## Files -/

section Items

variable (source : String) (file? : Option String)

mutual

/-- What a node holds, and the surroundings behind it. -/
def collect (around : Surroundings) : SyntaxNode → Collected × Surroundings
  | .mk label children =>
    let node := SyntaxNode.mk label children
    match node.role with
    | .directive => collectDirective around (node.text source)
    | .namespaceBlock =>
      (collectBody (isBody children) (around.inNamespace (node.namespaceName source)) children, around)
    | .namespaceLine =>
      let inner := around.inNamespace (node.namespaceName source)
      (collectItems inner children, inner)
    | .group => (collectItems around children, around)
    | .type => (⟨node.declarations source file? around, []⟩, around)
    | .other => (.empty, around)

/-- What the body of a namespace holds, which is the first of some nodes that is said to be it. -/
def collectBody (isBody : SyntaxNode → Bool) (around : Surroundings) : List SyntaxNode → Collected
  | [] => .empty
  | .mk label items :: nodes =>
    if isBody (.mk label items) then collectItems around items else collectBody isBody around nodes

/-- What nodes that stand side by side hold. -/
def collectItems (around : Surroundings) : List SyntaxNode → Collected
  | [] => .empty
  | node :: nodes =>
    let (found, behind) := node.collect around
    found.append (collectItems behind nodes)

end

end Items

end SyntaxNode

/-- What the syntax tree of a file holds, where the directives for the whole program hold for the declarations of the
file. -/
def collect (source : String) (file? : Option String) (root : SyntaxNode) : Collected :=
  let found := SyntaxNode.collectItems source file? .outermost root.children
  { found with declarations := found.declarations.map (Declaration.addUsings found.globalUsings) }

end ContractStubs
