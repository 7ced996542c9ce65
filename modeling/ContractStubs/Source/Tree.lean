import ContractStubs.Source.Lexer
import ContractStubs.Syntax.Node

/-!
# Tokens in groups

Parentheses, brackets and braces put the tokens between them into groups, and so do the directives around a passage on
conditions. A brace that closes also ends the parentheses and brackets that were left open before it, and the end of a
passage ends all that was left open in it; a token that closes nothing stands for itself. A node of a syntax tree stands
over some of these trees, from the first one to the last.
-/

namespace ContractStubs

/-- The node as a field of its parent. -/
def SyntaxNode.asField (field : String) : SyntaxNode → SyntaxNode
  | .mk label children => .mk { label with field? := some field } children

namespace Source

/-- A token, or a group of them. -/
inductive Tree where
  | leaf (token : Token)
  /-- What stands between two tokens; the second one may be missing. -/
  | group (opening : Token) (items : List Tree) (closing? : Option Token)
  deriving Repr, Inhabited

/-! ## Reading -/

/-- The token opens a group. -/
def isOpening (t : Token) : Bool :=
  t.isBranching .onCondition || t.isMark "(" || t.isMark "[" || t.isMark "\x7b"

/-- The token closes groups. -/
def isClosing (t : Token) : Bool :=
  t.isBranching .finished || t.isMark ")" || t.isMark "]" || t.isMark "\x7d"

/-- The second token closes what the first one opens. -/
def closes (opening t : Token) : Bool :=
  opening.isBranching .onCondition && t.isBranching .finished || opening.isMark "(" && t.isMark ")" ||
    opening.isMark "[" && t.isMark "]" || opening.isMark "\x7b" && t.isMark "\x7d"

/-- The second token may end a group that the first one opens and that nothing closes. -/
def cuts (opening t : Token) : Bool :=
  t.isBranching .finished || t.isMark "\x7d" && !opening.isBranching .onCondition

/-- A group still open: its first token, and the trees before it, last one first. -/
abbrev Pending := Token × List Tree

/-- The trees read so far, last one first, within the groups still open, innermost first. -/
structure Reading where
  pending : List Pending
  trees : List Tree
  deriving Inhabited

/-- One more tree. -/
def Reading.add (r : Reading) (tree : Tree) : Reading := ⟨r.pending, tree :: r.trees⟩

/-- The innermost group that a token closes ends here, and before it the groups in it, unless one of them must not be
cut. -/
def closedBy? (t : Token) : (pending : List Pending) → (trees : List Tree) → Option Reading
  | [], _ => none
  | (opening, before) :: outer, trees =>
    if closes opening t then some ⟨outer, .group opening trees.reverse (some t) :: before⟩
    else if cuts opening t then closedBy? t outer (.group opening trees.reverse none :: before)
    else none

/-- One more token. -/
def Reading.token (r : Reading) (t : Token) : Reading :=
  if isOpening t then ⟨(t, r.trees) :: r.pending, []⟩
  else if isClosing t then (closedBy? t r.pending r.trees).getD (r.add (.leaf t))
  else r.add (.leaf t)

/-- The trees at the end of the text, last one first: groups still open have no second token. -/
def atEnd : (pending : List Pending) → (trees : List Tree) → List Tree
  | [], trees => trees
  | (opening, before) :: outer, trees => atEnd outer (.group opening trees.reverse none :: before)

/-- The trees of some tokens. -/
def treesOf (ts : List Token) : List Tree :=
  let r := ts.foldl Reading.token ⟨[], []⟩
  (atEnd r.pending r.trees).reverse

/-! ## Looking -/

/-- The first token of a tree. -/
def Tree.first : Tree → Token
  | .leaf t => t
  | .group opening _ _ => opening

/-- How many characters of the text stand before a tree. -/
def Tree.start (tree : Tree) : Nat := tree.first.start

mutual

/-- How many characters of the text stand before the end of a tree. -/
def Tree.stop : Tree → Nat
  | .leaf t => t.stop
  | .group opening items closing? => (closing?.map Token.stop).getD (stopOf opening.stop items)

/-- How many characters stand before the end of the last tree, or where there is none, before this place. -/
def stopOf (place : Nat) : List Tree → Nat
  | [] => place
  | tree :: trees => stopOf tree.stop trees

end

/-- The tree is this mark. -/
def Tree.isMark (tree : Tree) (text : String) : Bool :=
  match tree with
  | .leaf t => t.isMark text
  | .group .. => false

/-- The tree is this keyword. -/
def Tree.isWord (tree : Tree) (text : String) : Bool :=
  match tree with
  | .leaf t => t.isWord text
  | .group .. => false

/-- The word that a tree is, if it is one. -/
def Tree.word? : Tree → Option String
  | .leaf t => if t.kind = .word then some t.text else none
  | .group .. => none

/-- What stands in a group with this first sign. -/
def Tree.itemsIn? (tree : Tree) (opening : String) : Option (List Tree) :=
  match tree with
  | .leaf _ => none
  | .group first items _ => if first.isMark opening then some items else none

/-- The tree is a group with this first sign. -/
def Tree.isGroup (tree : Tree) (opening : String) : Bool := (tree.itemsIn? opening).isSome

/-- The tree is a group in braces. -/
def Tree.isBody (tree : Tree) : Bool := tree.isGroup "\x7b"

/-- The tree is no group without its last token. -/
def Tree.isClosed : Tree → Bool
  | .leaf _ => true
  | .group _ _ closing? => closing?.isSome

/-- The tree is one of these words. -/
def Tree.isAmong (tree : Tree) (words : List String) : Bool :=
  match tree.word? with
  | some word => words.contains word
  | none => false

/-- The tree is one of these marks. -/
def Tree.isOneOf (tree : Tree) (marks : List String) : Bool := marks.any tree.isMark

/-- The parts of a passage between its directives, the first one and the others. -/
def branchesFrom : List Tree → List Tree × List (List Tree)
  | [] => ([], [])
  | .leaf t :: trees =>
    let (branch, branches) := branchesFrom trees
    if t.isBranching .orCondition || t.isBranching .otherwise then ([], branch :: branches)
    else (.leaf t :: branch, branches)
  | tree :: trees =>
    let (branch, branches) := branchesFrom trees
    (tree :: branch, branches)

/-- The branches of a tree that is a passage on conditions. A condition ends with its line. -/
def Tree.branches? : Tree → Option (List (List Tree))
  | .leaf _ => none
  | .group opening items _ =>
    if opening.isBranching .onCondition then
      let (branch, branches) := branchesFrom items
      some ((branch :: branches).map fun trees => trees.dropWhile fun tree => !tree.first.startsLine)
    else none

/-! ## Nodes -/

/-- A node over some trees. One over none is empty. -/
def node (kind : String) (trees : List Tree) (children : List SyntaxNode) : SyntaxNode :=
  .mk ⟨kind, none, true, false, trees.head?.elim 0 Tree.start, stopOf 0 trees⟩ children

/-- A keyword or a sign. -/
def sign (tree : Tree) : SyntaxNode := .mk ⟨tree.first.text, none, false, false, tree.start, tree.stop⟩ []

/-- The comments and directives in front of a tree. -/
def comments (tree : Tree) : List SyntaxNode :=
  tree.first.notes.map fun note => .mk ⟨"comment", none, true, false, note.start, note.start + note.text.length⟩ []

/-- The comments in front of the first of some trees. -/
def commentsBefore (trees : List Tree) : List SyntaxNode := trees.head?.elim [] comments

/-- A name that stands for its parent. -/
def nameField (trees : List Tree) : SyntaxNode := (node "identifier" trees []).asField "name"

/-- Where no item can be read. -/
def errorNode (trees : List Tree) (items : List SyntaxNode) : SyntaxNode := node "ERROR" trees items

end Source

end ContractStubs
