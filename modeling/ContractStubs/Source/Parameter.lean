import ContractStubs.Source.Phrase

/-!
# Reading parameters

The parameters of a method from what stands in its parentheses. The comments between the parts of a parameter are part
of it, but not those before the first part.
-/

namespace ContractStubs

namespace Source

/-- What stands in front of the value of a parameter. -/
structure ParameterHead where
  /-- Attributes, and words that tell how an argument is passed. -/
  front : List Tree
  /-- The type, without trees where none is written. -/
  type : List Tree
  name : Tree
  /-- The keyword of a parameter that takes all further arguments. -/
  takesAll? : Option Tree
  deriving Inhabited

/-- The trees may follow the name of a parameter. -/
def mayFollowName (trees : List Tree) : Bool := trees.head?.all (·.isOneOf [",", "="])

/-- The name that some trees start with, as that of a parameter with a type. -/
def namedParameter? (takesAll? : Option Tree) (type trees : List Tree) : Option (ParameterHead × List Tree) :=
  match trees with
  | [] => none
  | name :: rest =>
    if name.word?.isSome && mayFollowName rest then some (⟨[], type, name, takesAll?⟩, rest) else none

/-- The type and the name that some trees start with. The type may be left out. -/
def typedParameter? (takesAll? : Option Tree) (trees : List Tree) : Option (ParameterHead × List Tree) :=
  ((types trees).findSome? fun (type, rest) => namedParameter? takesAll? type rest).or
    (namedParameter? takesAll? [] trees)

/-- The head of a parameter, and the rest. The word `scoped` tells how an argument is passed only where it cannot belong
to the type. -/
def parameterHead? : List Tree → Option (ParameterHead × List Tree)
  | [] => none
  | tree :: trees =>
    let isFront := isAttributes tree || tree.isAmong parameterModifiers ||
      tree.isWord "scoped" &&
        (trees.head?.any (·.isAmong parameterModifiers) || (typedParameter? none (tree :: trees)).isNone)
    if isFront then
      (parameterHead? trees).map fun (head, rest) => ({ head with front := tree :: head.front }, rest)
    else if tree.isWord "params" then typedParameter? (some tree) trees
    else typedParameter? none (tree :: trees)

/-- The nodes of some parts, each with its first tree, and the comments between them. -/
def withComments : List (Tree × SyntaxNode) → List SyntaxNode
  | [] => []
  | (_, part) :: parts => part :: parts.flatMap fun (first, part) => comments first ++ [part]

/-- What stands in front of the value of a parameter, each part with its first tree. -/
def ParameterHead.parts (head : ParameterHead) : List (Tree × SyntaxNode) :=
  head.front.map (fun tree => (tree, frontNode tree)) ++
    (head.type.head?.map fun first => (first, typeField head.type)).toList ++ [(head.name, nameField [head.name])]

/-- The nodes of a parameter. One that takes all further arguments has no node of its own. -/
def parameterNodes (entry : Entry ParameterHead) : List SyntaxNode :=
  let head := entry.head
  match head.takesAll? with
  | some keyword =>
    sign keyword :: commentsBefore head.type ++ typeNode head.type :: comments head.name ++ [nameField [head.name]]
  | none =>
    -- an equals sign with nothing behind it gives no value
    let value := if entry.value.length ≤ 1 then [] else entry.value
    [node "parameter" (head.front ++ head.type ++ head.name :: value)
      (withComments head.parts ++ (value.head?.map sign).toList)]

/-- The node of the parameters in parentheses. -/
def parameterList (tree : Tree) (items : List Tree) : SyntaxNode :=
  node "parameter_list" [tree] ((entries parameterHead? items).flatMap parameterNodes)

end Source

end ContractStubs
