import ContractStubs.Text.Alphabetic
import ContractStubs.Text.Blank

/-!
# Tokens of type expressions

Names, the double colon, and single characters. Blanks separate tokens and are none themselves.
-/

namespace ContractStubs

namespace TypeExpr

/-- A token of a type expression. -/
inductive Token where
  /-- A name, as long as it goes. -/
  | word (text : String)
  /-- Two colons in a row. -/
  | colons
  /-- Any other character. -/
  | mark (c : Char)
  deriving DecidableEq, Repr, Inhabited

/-- A character that a name may start with. -/
def isWordStart (c : Char) : Bool := c = '@' || c = '_' || isAlphabetic c

/-- A character that a name may go on with. -/
def isWordPart (c : Char) : Bool := c = '_' || isAlphanumeric c

/-- The token of a name whose characters are given last one first; no character, no token. -/
def wordToken : List Char → List Token
  | [] => []
  | cs => [.word (String.ofList cs.reverse)]

/-- The tokens of a text that follows the characters `word` of a name already begun, last one first. -/
def scan : (word : List Char) → List Char → List Token
  | word, [] => wordToken word
  | word, ':' :: ':' :: cs => wordToken word ++ .colons :: scan [] cs
  | word, c :: cs =>
    if !word.isEmpty && isWordPart c then scan (c :: word) cs
    else if isWordStart c then wordToken word ++ scan [c] cs
    else if isBlank c then wordToken word ++ scan [] cs
    else wordToken word ++ .mark c :: scan [] cs

/-- The tokens of a text. -/
def tokens (text : String) : List Token := scan [] text.toList

end TypeExpr

end ContractStubs
