import ContractStubs.Source.Tree

/-!
# Phrases of declarations

The parts that declarations are made of: lists with commas, types and names as written, what stands in front of a
declaration, and type parameters.

No word is kept for the language alone: where a name has to stand, any word is one. So a phrase is told from what may
stand at its place, and a word that may be a keyword or a name is read as what lets the rest be read.
-/

namespace ContractStubs

namespace Source

/-! ## Lists with commas -/

/-- The rest of the piece being read, where so many angle brackets are open, and the pieces after it. -/
def piecesFrom : (depth : Nat) → List Tree → List Tree × List (List Tree)
  | _, [] => ([], [])
  | depth, tree :: trees =>
    if depth = 0 && tree.isMark "," then
      let (piece, pieces) := piecesFrom 0 trees
      ([], piece :: pieces)
    else
      let deeper := if tree.isMark "<" then depth + 1 else if tree.isMark ">" then depth - 1 else depth
      let (piece, pieces) := piecesFrom deeper trees
      (tree :: piece, pieces)

/-- The pieces of a list, which commas outside of angle brackets separate. -/
def piecesOf (trees : List Tree) : List (List Tree) :=
  let (piece, pieces) := piecesFrom 0 trees
  piece :: pieces

/-! ## Types -/

/-- What of a type was read last. -/
inductive TypeSpot where
  /-- Nothing, or words in front of the type. -/
  | start
  /-- A dot or two colons, so that a name has to follow. -/
  | dot
  /-- A name. -/
  | name
  /-- Type arguments up to the last angle bracket. -/
  | arguments
  /-- The sign of a nullable type, a pointer or an array. -/
  | suffix
  /-- The start of a pointer to a function. -/
  | functionPointer
  /-- Type arguments with so many angle brackets open. -/
  | angles (depth : Nat)
  deriving DecidableEq, Repr, Inhabited

/-- The words that are types and not names of types. -/
def typeWords : List String :=
  ["bool", "byte", "char", "decimal", "double", "float", "int", "long", "nint", "nuint", "object", "sbyte", "short",
   "string", "uint", "ulong", "ushort", "void"]

/-- The tree is the sign of a nullable type, a pointer or an array. -/
def isSuffix (tree : Tree) : Bool :=
  tree.isMark "?" || tree.isMark "*" || ((tree.itemsIn? "[").any fun items => items.all (·.isMark ","))

/-- What was read last when the type goes on with a tree, if it does. -/
def TypeSpot.next? (tree : Tree) (ahead : List Tree) : TypeSpot → Option TypeSpot
  | .start =>
    if tree.isAmong ["ref", "readonly"] then some .start
    else if tree.isWord "delegate" && ahead.head?.any (·.isMark "*") then some .functionPointer
    else if tree.isGroup "(" then some .suffix
    else if tree.word?.isSome then some .name
    else none
  | .dot => if tree.word?.isSome then some .name else none
  | .name =>
    if tree.isMark "<" then some (.angles 1)
    else if tree.isMark "." || tree.isMark "::" then some .dot
    else if isSuffix tree then some .suffix
    else none
  | .arguments => if tree.isMark "." then some .dot else if isSuffix tree then some .suffix else none
  | .suffix => if isSuffix tree then some .suffix else none
  | .functionPointer =>
    if tree.isMark "*" || tree.isAmong ["managed", "unmanaged"] || tree.isGroup "[" then some .functionPointer
    else if tree.isMark "<" then some (.angles 1)
    else none
  | .angles depth =>
    if tree.isMark "<" then some (.angles (depth + 1))
    else if tree.isMark ">" then some (if depth ≤ 1 then .arguments else .angles (depth - 1))
    else if tree.isMark ";" then none
    else some (.angles depth)

/-- The type may end here. -/
def TypeSpot.mayEnd : TypeSpot → Bool
  | .name | .arguments | .suffix => true
  | .start | .dot | .functionPointer | .angles _ => false

/-- The trees that belong to the type, and the rest, if a type can be read. -/
def typeFrom? : TypeSpot → List Tree → Option (List Tree × List Tree)
  | spot, [] => if spot.mayEnd then some ([], []) else none
  | spot, tree :: trees =>
    match spot.next? tree trees with
    | some next => (typeFrom? next trees).map fun (taken, rest) => (tree :: taken, rest)
    | none => if spot.mayEnd then some ([], tree :: trees) else none

/-- The type that some trees start with, and the rest. -/
def type? (trees : List Tree) : Option (List Tree × List Tree) := typeFrom? .start trees

/-- The trees of a type are a name, which may be qualified and have type arguments. -/
def isNamedType (type : List Tree) : Bool :=
  type.head?.any (fun tree => tree.word?.isSome && !tree.isAmong ("ref" :: "delegate" :: typeWords)) &&
    type.getLast?.any fun tree => tree.word?.isSome || tree.isMark ">"

/-- The type with the word `scoped` that some trees start with, and the rest. Behind the word stands a name, or a type
by reference. -/
def scopedType? (trees : List Tree) : Option (List Tree × List Tree) := do
  let first ← trees.head?
  let (type, rest) ← type? trees.tail
  if first.isWord "scoped" && (isNamedType type || type.head?.any (·.isWord "ref")) then some (first :: type, rest)
  else none

/-- The types that some trees may be read to start with, the better one first, each with the rest. -/
def types (trees : List Tree) : List (List Tree × List Tree) := (scopedType? trees).toList ++ (type? trees).toList

/-- The node of a type. -/
def typeNode (trees : List Tree) : SyntaxNode := node "type" trees []

/-- A type that its parent is declared with. -/
def typeField (trees : List Tree) : SyntaxNode := (typeNode trees).asField "type"

/-! ## Names -/

/-- The trees of a name that may be qualified and have type parameters, and the rest, if one can be read. The words for
operators and for access by index end a name. -/
def nameFrom? : TypeSpot → List Tree → Option (List Tree × List Tree)
  | spot, [] => if spot.mayEnd then some ([], []) else none
  | spot, tree :: trees =>
    if spot = .dot && tree.isAmong ["operator", "this"] then some ([tree], trees)
    else if spot.mayEnd && isSuffix tree then some ([], tree :: trees)
    else match spot.next? tree trees with
      | some next => (nameFrom? next trees).map fun (taken, rest) => (tree :: taken, rest)
      | none => if spot.mayEnd then some ([], tree :: trees) else none

/-- The name that some trees start with, and the rest. -/
def name? (trees : List Tree) : Option (List Tree × List Tree) := nameFrom? .dot trees

/-- The last part of a name with what follows it, and whether there is another part before it. -/
def lastName : (depth : Nat) → List Tree → List Tree × Bool
  | _, [] => ([], false)
  | depth, tree :: trees =>
    let deeper := if tree.isMark "<" then depth + 1 else if tree.isMark ">" then depth - 1 else depth
    let (name, qualified) := lastName deeper trees
    if qualified then (name, true)
    else if depth = 0 && (tree.isMark "." || tree.isMark "::") then (name, true)
    else (tree :: name, false)

/-! ## What stands in front -/

/-- The tree is a list of attributes for the whole program. -/
def isProgramAttribute (tree : Tree) : Bool :=
  match tree.itemsIn? "[" with
  | some (target :: colon :: _) => target.isAmong ["assembly", "module"] && colon.isMark ":"
  | _ => false

/-- The trees are a list of attributes for a declaration, or nothing. -/
def isAtMostAttributes : List Tree → Bool
  | [] => true
  | [tree] => tree.isGroup "[" && !isProgramAttribute tree
  | _ => false

/-- The tree is a passage on conditions that only gives attributes to a declaration. -/
def isAttributePassage (tree : Tree) : Bool :=
  match tree.branches? with
  | some branches => branches.all isAtMostAttributes && branches.any (!·.isEmpty)
  | none => false

/-- The tree may stand for attributes in front of a declaration. -/
def isAttributes (tree : Tree) : Bool := tree.isGroup "[" || isAttributePassage tree

/-- A list of attributes without the word that says what they are for. -/
def withoutTarget : List Tree → List Tree
  | target :: colon :: trees => if colon.isMark ":" then trees else target :: colon :: trees
  | trees => trees

/-- The node of an attribute from a piece of a list, if it starts with a name. -/
def attribute? (piece : List Tree) : Option SyntaxNode :=
  (type? piece).map fun (name, _) => node "attribute" piece [nameField name]

/-- The node of a passage on conditions. Nothing in it is read. -/
def passage (tree : Tree) : SyntaxNode := node "preproc_if" [tree] []

/-- The node of something in front of a declaration: a list of attributes, a word, or a passage. -/
def frontNode (tree : Tree) : SyntaxNode :=
  match tree.itemsIn? "[" with
  | some list => node "attribute_list" [tree] ((piecesOf (withoutTarget list)).filterMap attribute?)
  | none => if tree.word?.isSome then node "modifier" [tree] [] else passage tree

/-! ## Type parameters -/

/-- The node of a type parameter from a piece of a list. The last word is its name. -/
def typeParameter? (piece : List Tree) : Option SyntaxNode :=
  (piece.getLast?.filter (·.word?.isSome)).map fun name => node "type_parameter" piece [nameField [name]]

/-- The node of the type parameters between a first and a last angle bracket. -/
def typeParameterList (angled : List Tree) : SyntaxNode :=
  node "type_parameter_list" angled ((piecesOf angled.dropLast.tail).filterMap typeParameter?)

/-! ## Modifiers -/

/-- The trees start like a member with a type, and are not only words in front of one. -/
def startsTypedMember (trees : List Tree) : Bool :=
  (types trees).any fun (_, rest) =>
    match name? rest with
    | some (name, next :: _) =>
      name.getLast?.any (·.isWord "operator") || next.isGroup "(" || next.isBody ||
        next.isGroup "[" && !isSuffix next || next.isOneOf ["=>", ";", ",", "="]
    | _ => false

/-- The trees start like a constructor. -/
def startsConstructor : List Tree → Bool
  | name :: parameters :: next :: _ =>
    name.word?.isSome && parameters.isGroup "(" && (next.isBody || next.isOneOf ["=>", ":", ";"])
  | _ => false

/-- The modifiers in front that are among some words, and the rest. The word `file` is no modifier where it may be the
type or the name of a member. -/
def modifiersOf (words : List String) : List Tree → List Tree × List Tree
  | [] => ([], [])
  | tree :: trees =>
    let isDeclared := tree.isWord "file" && (startsTypedMember (tree :: trees) || startsConstructor (tree :: trees))
    if tree.isAmong words && !isDeclared then
      let (modifiers, rest) := modifiersOf words trees
      (tree :: modifiers, rest)
    else ([], tree :: trees)

/-! ## Lists of what may have a value

Variables and parameters are listed with commas, and each may have a value behind an equals sign. A comma may also stand
in a value: between type arguments, or between the keys that a query sorts by. Such a comma is told from one that
separates by what follows it: where the list goes on, all of the rest can be read as entries. -/

/-- An entry of a list: what was read in front of its value, and the trees of the value, from the equals sign on. -/
structure Entry (α : Type) where
  head : α
  value : List Tree
  deriving Inhabited

/-- The value in front and what follows it. A value ends at the first comma behind which all can be read. -/
def valueFrom {β : Type} (following? : List Tree → Option β) : List Tree → List Tree × Option β
  | [] => ([], none)
  | tree :: trees =>
    match if tree.isMark "," then following? trees else none with
    | some following => ([], some following)
    | none =>
      let (value, following) := valueFrom following? trees
      (tree :: value, following)

/-- The entries that all of some trees are, at most as many as the fuel says, if they are entries. -/
def entriesFrom? {α : Type} (head? : List Tree → Option (α × List Tree)) :
    (fuel : Nat) → List Tree → Option (List (Entry α))
  | 0, _ => none
  | fuel + 1, trees => do
    let (head, rest) ← head? trees
    match rest with
    | [] => some [⟨head, []⟩]
    | sign :: rest =>
      if sign.isMark "," then (entriesFrom? head? fuel rest).map (⟨head, []⟩ :: ·)
      else if sign.isMark "=" then
        let (value, following) := valueFrom (entriesFrom? head? fuel) rest
        some (⟨head, sign :: value⟩ :: following.getD [])
      else none

/-- The entries of a list. If not all of it can be read, each piece between commas is tried by itself. -/
def entries {α : Type} (head? : List Tree → Option (α × List Tree)) (trees : List Tree) : List (Entry α) :=
  match entriesFrom? head? trees.length trees with
  | some found => found
  | none => ((piecesOf trees).filterMap (entriesFrom? head? trees.length)).flatten

end Source

end ContractStubs
