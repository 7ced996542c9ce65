import ContractStubs.Syntax.Member

/-!
# Types in a syntax tree

What the node of a type declaration says about the type itself: its kind, name, attributes and base types, and the
members in its body.
-/

namespace ContractStubs

namespace SyntaxNode

/-- The kinds of nodes that declare a type. -/
def typeKinds : List (String × DeclarationKind) :=
  [("class_declaration", .classType), ("struct_declaration", .structType), ("record_declaration", .recordClass),
   ("record_struct_declaration", .recordStruct), ("interface_declaration", .interfaceType),
   ("enum_declaration", .enumType)]

/-- The kind of type that a node declares, if it declares one. A record with a further keyword is a structure. -/
def typeKind? (n : SyntaxNode) : Option DeclarationKind :=
  (typeKinds.lookup n.kind).map fun kind =>
    if kind = .recordClass ∧ (n.childOfKind? "struct").isSome then .recordStruct else kind

/-- The node of the name that a type is declared with, unless the text lacks it. -/
def typeName? (n : SyntaxNode) : Option SyntaxNode := (n.field? "name").filter fun name => !name.label.isMissing

/-- The name that a type is declared with. -/
def typeName (source : String) (n : SyntaxNode) : String := (n.typeName?).elim "" (text source)

/-! ## Attributes and base types -/

/-- The name of an attribute with its type arguments. -/
def attributeName? (n : SyntaxNode) : Option SyntaxNode := (n.field? "name").or n.namedChildren.head?

/-- The attributes in front of a declaration. -/
def attributes (source : String) (n : SyntaxNode) : List Attribute :=
  ((n.children.filter (isOfKind "attribute_list")).flatMap fun list =>
    (list.namedChildren.filter (isOfKind "attribute")).filterMap attributeName?).map fun name =>
      .ofText (name.text source)

/-- The type that a node in a list of base types gives: the node itself, or the type that arguments stand behind. -/
def baseType? (n : SyntaxNode) : Option SyntaxNode :=
  if n.isOfKind "primary_constructor_base_type" then (n.field? "type").or n.namedChildren.head? else some n

/-- The base types of a declaration. -/
def baseTypes (source : String) (n : SyntaxNode) : List TypeExpr :=
  match (n.childOfKind? "base_list").or (n.childOfKind? "record_base") with
  | none => []
  | some list =>
    ((list.namedChildren.filter fun base => !base.isOfKind "argument_list").filterMap baseType?).map
      (writtenType source)

/-! ## The body -/

/-- Among some children, the body of a namespace or a type. -/
def isBody (children : List SyntaxNode) (n : SyntaxNode) : Bool := standsFor "body" "declaration_list" children n

/-- What stands in the body of a namespace or a type. -/
def bodyChildren (n : SyntaxNode) : List SyntaxNode := (n.children.find? (isBody n.children)).elim [] children

/-- The members in the body of a type. An enumeration has none. -/
def bodyMembers (source : String) (n : SyntaxNode) : List MemberDeclaration :=
  if n.typeKind? = some .enumType then []
  else (n.bodyChildren.filter fun c => c.isNamed && c.typeKind?.isNone).flatMap (members source)

end SyntaxNode

end ContractStubs
