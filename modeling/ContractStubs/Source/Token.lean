import ContractStubs.Text.Blank
import ContractStubs.Text.Word

/-!
# Tokens of source text

A token knows its place in the text and what stands before it up to the token before. Comments and directives stand
there; they are the notes of the token that follows them. Directives that make a passage depend on a condition are tokens
themselves.
-/

namespace ContractStubs

/-- A directive that makes a passage depend on a condition. -/
inductive Branching where
  /-- The start of a passage, which a condition follows. -/
  | onCondition
  /-- The start of another branch, which a condition follows. -/
  | orCondition
  /-- The start of the last branch. -/
  | otherwise
  /-- The end of the passage. -/
  | finished
  deriving DecidableEq, Repr, Inhabited

/-- What a token is. -/
inductive TokenKind where
  /-- A keyword or a name. -/
  | word
  /-- The digits and letters of a number. -/
  | number
  /-- A string or a character in quotes. -/
  | literal
  /-- A sign. -/
  | mark
  | branching (mark : Branching)
  deriving DecidableEq, Repr, Inhabited

/-- A comment, or a directive that is no token. -/
structure Note where
  /-- How many characters of the text stand before it. -/
  start : Nat
  text : String
  deriving DecidableEq, Repr, Inhabited

/-- A token with what stands before it. -/
structure Token where
  kind : TokenKind
  /-- The blanks, comments and directives since the token before. -/
  lead : String
  /-- The comments and directives of the lead. -/
  notes : List Note
  /-- How many characters of the text stand before it. -/
  start : Nat
  text : String
  deriving DecidableEq, Repr, Inhabited

namespace Token

/-- The token is this mark. -/
def isMark (t : Token) (text : String) : Bool := t.kind = .mark && t.text = text

/-- The token is this keyword. -/
def isWord (t : Token) (text : String) : Bool := t.kind = .word && t.text = text

/-- The token is this directive. -/
def isBranching (t : Token) (mark : Branching) : Bool := t.kind = .branching mark

/-- The token is the first one of its line. -/
def startsLine (t : Token) : Bool := t.lead.toList.contains '\n'

/-- How many characters of the text stand before the end of the token. -/
def stop (t : Token) : Nat := t.start + t.text.length

end Token

/-! ## Words -/

namespace Source

/-- The words in front of a declaration. -/
def declarationModifiers : List String :=
  ["abstract", "async", "const", "extern", "file", "fixed", "internal", "new", "override", "partial", "private",
   "protected", "public", "readonly", "required", "sealed", "static", "unsafe", "virtual", "volatile"]

/-- The words in front of the type of a parameter, apart from `scoped`, which may also belong to the type. -/
def parameterModifiers : List String := ["this", "ref", "out", "in", "readonly"]

/-- A blank between tokens: those of any text and the byte order mark. -/
def isGap (c : Char) : Bool := isBlank c || c = '\ufeff'

/-- A character that a keyword or name may start with. A backslash starts an escaped character. -/
def startsName (c : Char) : Bool := isWordStart c || c = '_' || c = '\\'

/-- A character that a keyword or name may go on with. -/
def continuesName (c : Char) : Bool := isWordPart c || c = '\\'

end Source

end ContractStubs
