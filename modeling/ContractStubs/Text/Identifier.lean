import ContractStubs.Text.Alphabetic
import ContractStubs.Text.Cut

/-!
# Identifiers

A declared name: an optional `@`, a letter or underscore, then letters, decimal digits and underscores. A qualified
one is a series of them with dots between.
-/

namespace ContractStubs

/-- A character that a declared name may start with. -/
def isNameStart (c : Char) : Bool := isLetter c || c = '_'

/-- A character that a declared name may go on with. -/
def isNamePart (c : Char) : Bool := isLetter c || isDecimalDigit c || c = '_'

/-- The characters of a name without its `@`. -/
def isPlainName : List Char → Bool
  | [] => false
  | c :: cs => isNameStart c && cs.all isNamePart

/-- The characters of a name. -/
def isName : List Char → Bool
  | '@' :: cs => isPlainName cs
  | cs => isPlainName cs

/-- The text is a declared name. -/
def isIdentifier (text : String) : Bool := isName text.toList

/-- The text is a series of declared names with dots between. -/
def isQualifiedIdentifier (text : String) : Bool := (piecesAt (· = '.') text.toList).all isName

end ContractStubs
