import ContractStubs.Text.Blank
import ContractStubs.Text.Cut

/-!
# Syntax trees

A tree over a source text. A node has a kind and an extent in the text; for its parent it may be a field, which has a
name. Keywords and signs are nodes without a name of their own: their kind is their text.
-/

namespace ContractStubs

/-- What a syntax tree says about a node, apart from what is below it. -/
structure NodeLabel where
  kind : String
  /-- The field of its parent that the node is. -/
  field? : Option String
  /-- The node is more than a keyword or a sign. -/
  isNamed : Bool
  /-- The node stands where the text lacks something. -/
  isMissing : Bool
  /-- How many characters of the text stand before the node. -/
  start : Nat
  /-- How many characters of the text stand before the end of the node. -/
  stop : Nat
  deriving DecidableEq, Repr, Inhabited

/-- A node of a syntax tree, with its children in the order of the text. -/
inductive SyntaxNode where
  | mk (label : NodeLabel) (children : List SyntaxNode)
  deriving Repr, Inhabited

/-- The text between two places of a source text, if there is one. -/
def extent? (source : String) (start stop : Nat) : Option String :=
  if start ≤ stop ∧ stop ≤ source.length then some (String.ofList ((source.toList.drop start).take (stop - start)))
  else none

namespace SyntaxNode

def label : SyntaxNode → NodeLabel
  | .mk label _ => label

def children : SyntaxNode → List SyntaxNode
  | .mk _ children => children

def kind (n : SyntaxNode) : String := n.label.kind

def isNamed (n : SyntaxNode) : Bool := n.label.isNamed

def start (n : SyntaxNode) : Nat := n.label.start

def stop (n : SyntaxNode) : Nat := n.label.stop

/-- The node is this field of its parent. -/
def isField (field : String) (n : SyntaxNode) : Bool := n.label.field? == some field

/-- The node is of this kind. -/
def isOfKind (kind : String) (n : SyntaxNode) : Bool := n.kind == kind

/-- The text of a node. -/
def text (source : String) (n : SyntaxNode) : String := (extent? source n.start n.stop).getD ""

/-- The children that are more than keywords and signs. -/
def namedChildren (n : SyntaxNode) : List SyntaxNode := n.children.filter isNamed

/-! ## Finding a child -/

/-- The first child that is this field. -/
def field? (field : String) (n : SyntaxNode) : Option SyntaxNode := n.children.find? (isField field)

/-- The first child of this kind. -/
def childOfKind? (kind : String) (n : SyntaxNode) : Option SyntaxNode := n.children.find? (isOfKind kind)

/-- Among some children, the child to be taken for a field: one that is this field, or where there is none, one of this
kind. -/
def standsFor (field kind : String) (children : List SyntaxNode) (n : SyntaxNode) : Bool :=
  if children.any (isField field) then n.isField field else n.isOfKind kind

/-- The first child that is this field, or where there is none, the first of this kind. -/
def fieldOrKind? (field kind : String) (n : SyntaxNode) : Option SyntaxNode :=
  n.children.find? (standsFor field kind n.children)

/-! ## Small parts of declarations -/

/-- The modifier stands among the children. -/
def hasModifier (source : String) (modifier : String) (n : SyntaxNode) : Bool :=
  n.children.any fun c => c.isOfKind "modifier" && trimBlank (c.text source) == modifier || c.isOfKind modifier

/-- The name of a type parameter; without a field for it, the last word. -/
def typeParameterName? (source : String) (n : SyntaxNode) : Option String :=
  match n.field? "name" with
  | some name => some (name.text source)
  | none => (blankWords (n.text source)).getLast?

/-- The names of the type parameters. -/
def typeParameterNames (source : String) (n : SyntaxNode) : List String :=
  match n.fieldOrKind? "type_parameters" "type_parameter_list" with
  | some list => (list.namedChildren.filter (isOfKind "type_parameter")).filterMap (typeParameterName? source)
  | none => []

end SyntaxNode

end ContractStubs
