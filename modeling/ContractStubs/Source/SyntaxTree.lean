import ContractStubs.Source.Member

/-!
# Reading a syntax tree

The syntax tree of a file from its tokens. Where something is no item, reading goes on behind the next semicolon or body,
or at the next type. A body that is not closed belongs to nothing: what stands in it is part of an error.
-/

namespace ContractStubs

namespace Source

/-! ## Types -/

/-- The words in front of a type declaration. -/
def typeModifiers : List String := "ref" :: declarationModifiers

/-- The keywords that declare a type, with the kinds of the nodes. -/
def typeKeywords : List (String × String) :=
  [("class", "class_declaration"), ("struct", "struct_declaration"), ("interface", "interface_declaration"),
   ("enum", "enum_declaration")]

/-- The tree may follow a type declaration that leaves out the name. -/
def followsName (tree : Tree) : Bool := tree.isOneOf [";", "<", ":"]

/-- What the keywords of a record are, and what follows them. The first one may be a name as well, so not all that
follows will do. -/
def recordKeywords? (first : Tree) : List Tree → Option (List Tree × List Tree)
  | [] => none
  | next :: rest =>
    if next.isAmong ["class", "struct"] then some ([first, next], rest)
    else if next.word?.isSome || followsName next || next.isBody then some ([first], next :: rest)
    else none

/-- The start of a type declaration: the kind of its node, its keywords, and what follows them. -/
structure TypeStart where
  kind : String
  keywords : List Tree
  rest : List Tree
  deriving Inhabited

/-- The start of the type declaration that some trees are, if they are one. -/
def typeStart? : List Tree → Option TypeStart
  | [] => none
  | first :: others =>
    match first.word?.bind (List.lookup · typeKeywords) with
    | some kind => some ⟨kind, [first], others⟩
    | none =>
      if first.isWord "record" then
        (recordKeywords? first others).map fun (keywords, rest) => ⟨"record_declaration", keywords, rest⟩
      else none

/-- The name of a declared type, and what follows it. The name may be left out where it cannot be missed: it is then
empty. -/
def typeName? (kind : String) : List Tree → Option (List Tree × List Tree)
  | [] => none
  | first :: others =>
    let standsAlone := first.isBody && ["enum_declaration", "record_declaration"].contains kind
    if first.word?.isSome then some ([first], others)
    else if standsAlone || followsName first then some ([], first :: others)
    else none

/-- The tree ends the first line of a type declaration. -/
def endsHeader (tree : Tree) : Bool := tree.isMark ";" || tree.isBody

/-- A type with arguments behind it, where the first line is that of a record or of another type. -/
def typeWithArguments (ofRecord : Bool) (type : List Tree) (arguments : Tree) : List SyntaxNode :=
  let list := node "argument_list" [arguments] []
  if ofRecord then [node "primary_constructor_base_type" (type ++ [arguments]) [typeField type, list]]
  else typeNode type :: comments arguments ++ [list]

/-- The types of a list and the comments between them, and what follows the list, at most as many types as the fuel
says. -/
def typeList (ofRecord : Bool) : (fuel : Nat) → List Tree → List SyntaxNode × List Tree
  | 0, trees => ([], trees)
  | fuel + 1, trees =>
    match type? trees with
    | none => ([], trees)
    | some (type, rest) =>
      let arguments? := rest.head?.filter (·.isGroup "(")
      let found := commentsBefore type ++ arguments?.elim [typeNode type] (typeWithArguments ofRecord type)
      match if arguments?.isSome then rest.tail else rest with
      | comma :: more =>
        if comma.isMark "," then
          let (others, rest) := typeList ofRecord fuel more
          -- the comments in front of a comma stand in the list only where another type follows it
          (found ++ (if others.isEmpty then [] else comments comma) ++ others, rest)
        else (found, comma :: more)
      | [] => (found, [])

/-- The nodes that the first line of a type declaration gives behind the name, at most as many parts of it as the fuel
says: lists of type parameters and of base types. Behind `where` stand the name of a type parameter, a colon and
types. -/
def headerNodes (ofRecord : Bool) : (fuel : Nat) → List Tree → List SyntaxNode
  | 0, _ | _, [] => []
  | fuel + 1, tree :: trees =>
    if tree.isMark "<" then
      match typeFrom? .name (tree :: trees) with
      | some (angled, rest) => typeParameterList angled :: headerNodes ofRecord fuel rest
      | none => headerNodes ofRecord fuel trees
    else if tree.isMark ":" then
      let (bases, rest) := typeList ofRecord fuel trees
      node "base_list" (tree :: trees.take (trees.length - rest.length)) bases :: headerNodes ofRecord fuel rest
    else if tree.isWord "where" then headerNodes ofRecord fuel (typeList ofRecord fuel (trees.drop 2)).2
    else headerNodes ofRecord fuel trees

/-- A type declaration whose body was not looked at yet. -/
structure TypeFrame where
  /-- The kind of the node. -/
  kind : String
  /-- All of the declaration. -/
  whole : List Tree
  /-- The nodes in front of the body. -/
  header : List SyntaxNode
  /-- The body in its braces, unless there is none. -/
  body? : Option Tree
  /-- What stands in the body. -/
  items : List Tree
  isClosed : Bool
  deriving Inhabited

/-- The node of a type declaration, whose body holds some nodes. What an enumeration holds is not looked at. -/
def TypeFrame.node (frame : TypeFrame) (content : List SyntaxNode) : SyntaxNode :=
  let isEnumeration := frame.kind = "enum_declaration"
  let bodyKind := if isEnumeration then "enum_member_declaration_list" else "declaration_list"
  let body := frame.body?.map fun tree =>
    (Source.node bodyKind [tree] (if isEnumeration then [] else content)).asField "body"
  Source.node frame.kind frame.whole (frame.header ++ body.toList)

/-- The end of a type declaration: its body, if it has one, and the trees behind it. A semicolon right behind the body
is part of the declaration. -/
def typeEnd? : List Tree → Option (Option Tree × List Tree × List Tree)
  | [] => none
  | tree :: trees =>
    let body? := if tree.isBody then some tree else none
    match trees with
    | next :: rest =>
      if tree.isBody && next.isMark ";" && next.first.lead.isEmpty then some (body?, [tree, next], rest)
      else some (body?, [tree], trees)
    | [] => some (body?, [tree], [])

/-- The type declaration that some trees start with, and the trees behind it. -/
def typeFrame? (trees : List Tree) : Option (TypeFrame × List Tree) := do
  let attributes := trees.takeWhile isAttributes
  let (modifiers, declared) := modifiersOf typeModifiers (trees.dropWhile isAttributes)
  let start ← typeStart? declared
  let (name, afterName) ← typeName? start.kind start.rest
  let line := afterName.takeWhile fun tree => !endsHeader tree
  let (body?, taken, rest) ← typeEnd? (afterName.dropWhile fun tree => !endsHeader tree)
  let header := (attributes ++ modifiers).map frontNode ++ start.keywords.map sign ++
    nameField name :: headerNodes (start.kind = "record_declaration") line.length line
  return (⟨start.kind, attributes ++ modifiers ++ start.keywords ++ name ++ line ++ taken, header, body?,
    (body?.bind (·.itemsIn? "\x7b")).getD [], body?.all Tree.isClosed⟩, rest)

/-- The tree is a passage on conditions that is no part of a declaration. -/
def isPassage (tree : Tree) : Bool := tree.branches?.isSome && !isAttributePassage tree

/-! ## Items -/

/-- The tree may follow the name of a declared type that has a body. -/
def followsDeclaredName (tree : Tree) : Bool :=
  tree.isOneOf ["<", ":"] || tree.isGroup "(" || tree.isBody || tree.isWord "where"

/-- The trees start a type declaration behind this tree, which is part of no item. Records are not looked for, since
their keyword may be a name, and neither is what stands where a type has to be given. -/
def startsType (previous : Tree) (trees : List Tree) : Bool :=
  !previous.isOneOf [":", ",", "."] && !previous.isWord "delegate" &&
    match (modifiersOf typeModifiers trees).2 with
    | keyword :: name :: next :: _ =>
      keyword.isAmong (typeKeywords.map (·.1)) && name.word?.isSome && followsDeclaredName next
    | _ => false

/-- A value is begun, so that a body behind the tree does not end a statement. -/
def beginsValue (tree : Tree) : Bool := tree.isOneOf ["=", "=>"] || tree.isAmong ["is", "return", "throw"]

/-- The trees behind one that is part of no item, up to the end of what it is part of: a semicolon, a body outside of a
value, or the place before a type. -/
def unknownExtent : (inValue : Bool) → (previous : Tree) → List Tree → List Tree × List Tree
  | _, _, [] => ([], [])
  | inValue, previous, tree :: trees =>
    let inValue := inValue || beginsValue previous
    let ends := previous.isMark ";" || previous.isBody && !inValue
    if ends || startsType previous (tree :: trees) then ([], tree :: trees)
    else
      let (taken, rest) := unknownExtent inValue tree trees
      (tree :: taken, rest)

/-- What stands in a body that is not closed at the end of some trees. -/
def openBody (trees : List Tree) : List Tree :=
  match trees.getLast? with
  | some (.group opening items none) => if opening.isMark "\x7b" then items else []
  | _ => []

/-- The trees declare a variable: a type, a name, and the end of both. -/
def declaresVariable (trees : List Tree) : Bool :=
  match type? trees with
  | some (_, name :: next :: _) => name.word?.isSome && next.isOneOf [";", "=", ","]
  | _ => false

/-- The trees start a directive that names a namespace, and no statement. -/
def startsDirective : List Tree → Bool
  | first :: next :: rest =>
    if first.isWord "using" then
      next.isAmong ["static", "unsafe"] || !next.isGroup "(" && !declaresVariable (next :: rest)
    else first.isWord "global" && next.isWord "using"
  | _ => false

/-- The first line of a namespace behind its keyword, and what ends it. -/
def namespaceLine (trees : List Tree) : List Tree × List Tree :=
  (trees.takeWhile fun tree => !endsHeader tree, trees.dropWhile fun tree => !endsHeader tree)

/-- What stands in the body that ends a first line. -/
def itemsOf (ending : List Tree) : List Tree := (ending.head?.bind (·.itemsIn? "\x7b")).getD []

/-- The node of a namespace from the trees up to the end of its first line, and the trees from there on. What stands in
its body was read. -/
def namespaceNode (line : List Tree) (ending : List Tree) (content : List SyntaxNode) : SyntaxNode :=
  let name := if line.tail.isEmpty then [] else [nameField line.tail]
  match ending with
  | [] => errorNode line []
  | tree :: _ =>
    let whole := line ++ [tree]
    if !tree.isBody then node "file_scoped_namespace_declaration" whole name
    else if tree.isClosed then
      node "namespace_declaration" whole (name ++ [(node "declaration_list" [tree] content).asField "body"])
    else errorNode whole content

mutual

/-- The nodes of the members and types that the trees of a body declare, at most as many as the fuel says. A namespace
is read as well, though none belongs there. -/
def readBody : (fuel : Nat) → List Tree → List SyntaxNode
  | 0, _ => []
  | _, [] => []
  | fuel + 1, tree :: trees =>
    match typeFrame? (tree :: trees) with
    | some (frame, rest) => frame.node (readBody fuel frame.items) :: readBody fuel rest
    | none =>
      if isPassage tree then passage tree :: readBody fuel trees
      else
        let attributes := (tree :: trees).takeWhile isAttributes
        let (modifiers, declared) := modifiersOf declarationModifiers ((tree :: trees).dropWhile isAttributes)
        match if declared.head?.any (·.isWord "namespace") then declared else [] with
        | keyword :: behind =>
          let (name, ending) := namespaceLine behind
          namespaceNode (keyword :: name) ending (readItems fuel (itemsOf ending)) :: readBody fuel ending.tail
        | [] =>
          let (member, rest) := memberNode (attributes ++ modifiers) declared
          member :: readBody fuel rest

/-- The nodes of the items of some trees, at most as many as the fuel says. -/
def readItems : (fuel : Nat) → List Tree → List SyntaxNode
  | 0, _ => []
  | _, [] => []
  | fuel + 1, tree :: trees =>
    if isProgramAttribute tree then node "global_attribute" [tree] [] :: readItems fuel trees
    else if isPassage tree then passage tree :: readItems fuel trees
    else if tree.isWord "namespace" then
      let (name, ending) := namespaceLine trees
      namespaceNode (tree :: name) ending (readItems fuel (itemsOf ending)) :: readItems fuel ending.tail
    else if startsDirective (tree :: trees) then
      let (taken, rest) := unknownExtent false tree trees
      node "using_directive" (tree :: taken) [] :: readItems fuel rest
    else match typeFrame? (tree :: trees) with
      | some (frame, rest) =>
        (if frame.isClosed then frame.node (readBody fuel frame.items)
          else errorNode frame.whole (readItems fuel frame.items)) :: readItems fuel rest
      | none =>
        let (taken, rest) := unknownExtent false tree trees
        errorNode (tree :: taken) (readItems fuel (openBody (tree :: taken))) :: readItems fuel rest

end

/-- The syntax tree of a source text. -/
def syntaxTree (text : String) : SyntaxNode :=
  let ts := tokens text
  let trees := treesOf ts
  node "compilation_unit" trees (readItems ts.length trees)

end Source

end ContractStubs
