import ContractStubs.Text.Blank
import ContractStubs.Text.Identifier

/-!
# Directives that bring namespaces into scope

What the text of such a directive says. Aliases and directives that bring the members of a type into scope name no
namespace; a directive may be for the whole program.
-/

namespace ContractStubs

/-- A namespace brought into scope, for one file or for the whole program. -/
structure UsingDirective where
  isGlobal : Bool
  namespaceName : String
  deriving DecidableEq, Repr, Inhabited

namespace UsingDirective

/-- The text without the semicolons at its end. -/
def withoutSemicolons (text : String) : String :=
  String.ofList (text.toList.reverse.dropWhile (· = ';')).reverse

/-- What follows the word for the whole program, if the text starts with it. -/
def afterGlobal? (text : String) : Option String :=
  match stripOpening? "global" text with
  | some rest => if rest.toList.head?.any isBlank then some (trimBlankStart rest) else none
  | none => none

/-- The namespace that a directive names behind its keyword, if it does. -/
def namespaceIn? (target : String) : Option String :=
  if target.toList.contains '=' || startsWith "static " target then none
  else
    let name := withoutBlanks target
    let name := (stripOpening? "global::" name).getD name
    if isQualifiedIdentifier name then some name else none

/-- The directive that a text is, if it names a namespace. -/
def ofText? (text : String) : Option UsingDirective :=
  let text := withoutSemicolons (trimBlank text)
  let (isGlobal, rest) := match afterGlobal? text with
    | some rest => (true, rest)
    | none => (false, text)
  match stripOpening? "using" rest with
  | some target => (namespaceIn? (trimBlank target)).map (⟨isGlobal, ·⟩)
  | none => none

end UsingDirective

end ContractStubs
