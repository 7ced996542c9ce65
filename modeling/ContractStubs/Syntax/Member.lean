import ContractStubs.Declaration.Basic
import ContractStubs.Syntax.Node

/-!
# Members in a syntax tree

What a node in the body of a type declares, unless it is a type: a method with its parameters, the variables of a field,
or another member. A parameter that takes all further arguments may be a node like the others, or its parts may stand in
the list themselves, behind a keyword.
-/

namespace ContractStubs

namespace SyntaxNode

/-! ## Parameters -/

/-- The words that tell how an argument is passed. -/
def passingWords : List String := ["this", "scoped", "ref", "out", "in", "readonly", "params"]

/-- What stands in front of the type of a parameter, or of its name. -/
def before (place : Nat) (n : SyntaxNode) : List SyntaxNode := n.children.takeWhile fun c => c.start < place

/-- The words of the modifier of a parameter, from what stands in front of the type. -/
def modifierWords (source : String) (front : List SyntaxNode) : List String :=
  (front.filter fun c => !c.isOfKind "attribute_list").flatMap fun c =>
    (blankWords (c.text source)).filter passingWords.contains

/-- The text behind an equals sign up to the end of a parameter, or the text of a clause without its equals sign. -/
def valueText? (source : String) (stop : Nat) (c : SyntaxNode) : Option (Option String) :=
  if c.isOfKind "=" then some (extent? source c.stop stop)
  else if c.isOfKind "equals_value_clause" then
    some (some (String.ofList ((c.text source).toList.dropWhile (· = '='))))
  else none

/-- The value that a parameter has where no argument is given. The last one written counts. -/
def defaultText? (source : String) (n : SyntaxNode) : Option String :=
  (((n.children.filterMap (valueText? source n.stop)).getLast?).getD none).map fun value => compact (trimBlank value)

/-- The parameter that a node declares, if it has a name. -/
def parameter? (source : String) (n : SyntaxNode) : Option ParameterDeclaration :=
  ((n.field? "name").or (n.children.reverse.find? (isOfKind "identifier"))).map fun name =>
    let type? := n.field? "type"
    let front := n.before ((type?.getD name).start)
    let words := modifierWords source front
    let typeText := match type? with
      | some type => type.text source
      | none => trimBlank ((extent? source ((front.getLast?).elim n.start stop) name.start).getD "")
    { name := name.text source
      type := .parse (compact typeText)
      modifier? := if words.isEmpty then none else some (" ".intercalate words)
      default? := n.defaultText? source }

/-- The nodes of a parameter list that say nothing. -/
def listMarks : List String := ["attribute_list", ",", "(", ")"]

/-- The parameters that the nodes of a list declare, where the keyword for all further arguments may have come before,
and behind it the text of their type. -/
def parametersFrom (source : String) (takesAll : Bool) (type? : Option String) :
    List SyntaxNode → List ParameterDeclaration
  | [] => []
  | n :: ns =>
    if n.isOfKind "parameter" || n.isOfKind "parameter_array" then
      (n.parameter? source).toList ++ parametersFrom source takesAll type? ns
    else if n.isOfKind "params" then parametersFrom source true type? ns
    else if listMarks.contains n.kind || !takesAll || !n.isNamed then parametersFrom source takesAll type? ns
    else match type? with
      | none => parametersFrom source true (some (compact (n.text source))) ns
      | some type =>
        ⟨n.text source, .parse type, some "params", none⟩ :: parametersFrom source false none ns

/-- The parameters of a list. -/
def parameters (source : String) (list : SyntaxNode) : List ParameterDeclaration :=
  parametersFrom source false none list.children

/-! ## Members -/

/-- The type that a node gives. -/
def writtenType (source : String) (n : SyntaxNode) : TypeExpr := .parse (compact (n.text source))

/-- A member without type parameters and parameters. -/
def plainMember (source : String) (kind : MemberKind) (name : String) (type? : Option SyntaxNode) (n : SyntaxNode) :
    MemberDeclaration :=
  ⟨name, kind, n.hasModifier source "static", [], type?.map (writtenType source), []⟩

/-- The member that a node declares, its name being the field for it or else what stands for a name. -/
def namedMember (source : String) (kind : MemberKind) (otherwise : String) (n : SyntaxNode) : MemberDeclaration :=
  n.plainMember source kind ((n.field? "name").elim otherwise (text source)) (n.field? "type")

/-- The name of a variable. -/
def variableName? (n : SyntaxNode) : Option SyntaxNode := (n.field? "name").or (n.childOfKind? "identifier")

/-- One member for each variable that a node declares. -/
def variableMembers (source : String) (kind : MemberKind) (n : SyntaxNode) : List MemberDeclaration :=
  match n.childOfKind? "variable_declaration" with
  | none => []
  | some list =>
    ((list.namedChildren.filter (isOfKind "variable_declarator")).filterMap variableName?).map fun name =>
      n.plainMember source kind (name.text source) (list.field? "type")

/-- What stands in front of the name of a method: its last node that is more than a keyword or a sign. -/
def beforeName? (n : SyntaxNode) : Option SyntaxNode :=
  ((n.children.takeWhile fun c => !c.isField "name").filter isNamed).getLast?

/-- The return type of a method. -/
def returnType? (n : SyntaxNode) : Option SyntaxNode :=
  (((n.field? "returns").or (n.field? "type")).or n.beforeName?).filter fun t =>
    !t.isOfKind "modifier" && !t.isOfKind "attribute_list"

/-- The method that a node declares. One that implements a member of another interface is none. -/
def method? (source : String) (n : SyntaxNode) : Option MemberDeclaration :=
  if (n.childOfKind? "explicit_interface_specifier").isSome then none
  else (n.field? "name").map fun name =>
    { name := name.text source
      kind := .method
      isStatic := n.hasModifier source "static"
      typeParameters := n.typeParameterNames source
      returnType? := some ((n.returnType?).elim (.verbatim "") (writtenType source))
      parameters := (n.fieldOrKind? "parameters" "parameter_list").elim [] (parameters source) }

/-- The kinds of nodes that declare one member each, and what stands for its name where it has none. -/
def memberKinds : List (String × MemberKind × String) :=
  [("operator_declaration", .operator, "operator"), ("conversion_operator_declaration", .conversion, "operator"),
   ("constructor_declaration", .constructor, ".ctor"), ("destructor_declaration", .destructor, "Finalize"),
   ("property_declaration", .property, ""), ("indexer_declaration", .indexer, "this"),
   ("event_declaration", .event, "")]

/-- The kinds of nodes that declare variables. -/
def variableKinds : List (String × MemberKind) :=
  [("field_declaration", .field), ("event_field_declaration", .event)]

/-- The members that a node in the body of a type declares. -/
def members (source : String) (n : SyntaxNode) : List MemberDeclaration :=
  if n.isOfKind "method_declaration" then (n.method? source).toList
  else match memberKinds.lookup n.kind, variableKinds.lookup n.kind with
    | some (kind, otherwise), _ => [n.namedMember source kind otherwise]
    | none, some kind => n.variableMembers source kind
    | none, none => []

end SyntaxNode

end ContractStubs
