import ContractStubs.Declaration.Basic

/-!
# Scopes

The names that are visible where a type is written: the type parameters there, the namespaces around the place from the
innermost to the global one, and the namespaces of the using lines.
-/

namespace ContractStubs

/-- What is visible where a type is written. -/
structure Scope where
  namespaceName? : Option String
  usings : List String
  typeParameters : List String
  deriving DecidableEq, Repr, Inhabited

/-- The beginnings of a dotted name, from the first part alone to the whole name. -/
def dottedBeginnings : List String → List String
  | [] => []
  | part :: parts => part :: (dottedBeginnings parts).map fun rest => part ++ "." ++ rest

/-- A dotted name and the names of which it is a part, innermost first. -/
def enclosingNames (name : String) : List String := (dottedBeginnings (textPieces (· = '.') name)).reverse

/-- The part before the last dot and the part behind it, if there is a dot. -/
def splitQualifier? (name : String) : Option (String × String) :=
  match (textPieces (· = '.') name).reverse with
  | simple :: part :: parts => some (".".intercalate (part :: parts).reverse, simple)
  | _ => none

namespace Scope

/-- The scope inside a declaration. -/
def ofDeclaration (d : Declaration) : Scope :=
  ⟨d.namespaceName?.filter (· ≠ ""), d.usings, d.containers.flatMap (·.typeParameters) ++ d.typeParameters⟩

/-- The scope inside a generic member. -/
def withTypeParameters (s : Scope) (parameters : List String) : Scope :=
  { s with typeParameters := s.typeParameters ++ parameters }

/-- The namespaces around the place, innermost first; the last is the global one. -/
def enclosingNamespaces (s : Scope) : List (Option String) :=
  (s.namespaceName?.elim [] enclosingNames).map some ++ [none]

/-- The namespaces in which a name may be declared, nearest first. -/
def searchedNamespaces (s : Scope) : List (Option String) := s.enclosingNamespaces ++ s.usings.map some

end Scope

end ContractStubs
