import ContractStubs.Text.Cut
import ContractStubs.TypeExpr.Basic

/-!
# Writing type expressions

The one written form of a type expression: a comma and a space between arguments and between tuple elements, and no
other blank but the one before an element's name.
-/

namespace ContractStubs

/-- An element of a tuple as text: its type, and its name where it has one. -/
def elementText (type : String) : Option String → String
  | some name => type ++ " " ++ name
  | none => type

/-- Texts with a comma and a space between them. -/
def commaSeparated (texts : List String) : String := ", ".intercalate texts

namespace TypeExpr

mutual

/-- The text of a type expression. -/
def toText : TypeExpr → String
  | .named name [] suffix => name ++ suffix
  | .named name (arg :: args) suffix => name ++ "<" ++ commaSeparated (toText arg :: argTexts args) ++ ">" ++ suffix
  | .tuple elements suffix => "(" ++ commaSeparated (elementTexts elements) ++ ")" ++ suffix
  | .verbatim text => text

/-- The texts of type arguments. -/
def argTexts : List TypeExpr → List String
  | [] => []
  | arg :: args => toText arg :: argTexts args

/-- The texts of tuple elements. -/
def elementTexts : List (TypeExpr × Option String) → List String
  | [] => []
  | (type, name) :: elements => elementText (toText type) name :: elementTexts elements

end

/-- The last part of the name; a tuple has none, and a verbatim text is its own name. -/
def simpleName : TypeExpr → String
  | .named name _ _ => lastPiece (· = '.') name
  | .tuple .. => ""
  | .verbatim text => text

end TypeExpr

end ContractStubs
