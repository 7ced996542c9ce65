import ContractStubs.Binding.Index
import ContractStubs.Binding.Known
import ContractStubs.Binding.Scope
import ContractStubs.TypeRef.Basic

/-!
# Binding

Looking up the names of a type expression. A simple name is, in this order, a keyword, a type parameter, a declaration
in one of the namespaces around the place, a declaration in a namespace of the using lines, or a well-known type. A name
with a qualifier is a declaration in that namespace, a nested type, or a well-known type of exactly that namespace. What
is none of these stays as it was written.
-/

namespace ContractStubs

/-- All that names are looked up in besides the scope. -/
structure Binder where
  index : DeclarationIndex
  known : KnownTypes
  deriving DecidableEq, Repr, Inhabited

namespace Binder

/-- The nearest namespace around the place, or of the using lines, that declares the name. -/
def nearest? (b : Binder) (scope : Scope) (name : String) (arity : Nat) : Option (Option String) :=
  scope.searchedNamespaces.find? fun ns => b.index.contains ns name arity

/-- A qualifier seen from inside a namespace. -/
def qualifiedFrom (qualifier : String) : Option String → String
  | some ns => ns ++ "." ++ qualifier
  | none => qualifier

/-- The nearest namespace with the written qualifier that declares the name. -/
def nearestQualified? (b : Binder) (scope : Scope) (qualifier name : String) (arity : Nat) : Option String :=
  (scope.enclosingNamespaces.map (qualifiedFrom qualifier)).find? fun ns => b.index.contains (some ns) name arity

/-- A name without qualifier and its bound arguments. -/
def bindSimple (b : Binder) (scope : Scope) (name : String) (args : List TypeRef) : TypeRef :=
  if args.isEmpty && isKeywordType name then .bare .keyword name
  else if args.isEmpty && scope.typeParameters.contains name then .bare .typeParameter name
  else match b.nearest? scope name args.length with
    | some ns => .named ns name args
    | none =>
      match b.known.namespaceOf? name args.length with
      | some ns => .named (some ns) name args
      | none => .unresolved name args

/-- A name behind a qualifier and its bound arguments. -/
def bindQualified (b : Binder) (scope : Scope) (qualifier name : String) (args : List TypeRef) : TypeRef :=
  match b.nearestQualified? scope qualifier name args.length with
  | some ns => .named (some ns) name args
  | none =>
    let nested := qualifier ++ "." ++ name
    match b.nearest? scope nested args.length with
    | some ns => .named ns nested args
    | none =>
      if b.known.namespaceOf? name args.length = some qualifier then .named (some qualifier) name args
      else .unresolved nested args

/-- A written name and its bound arguments. -/
def bindName (b : Binder) (scope : Scope) (name : String) (args : List TypeRef) : TypeRef :=
  match splitQualifier? name with
  | some (qualifier, simple) => b.bindQualified scope qualifier simple args
  | none => b.bindSimple scope name args

mutual

/-- A type expression with its names looked up. -/
def bind (b : Binder) (scope : Scope) : TypeExpr → TypeRef
  | .verbatim text => .bare .verbatim text
  | .named name args suffix => (b.bindName scope name (bindAll b scope args)).withSuffix suffix
  | .tuple elements suffix => (TypeRef.tuple (bindElements b scope elements)).withSuffix suffix

/-- The type expressions of a list with their names looked up. -/
def bindAll (b : Binder) (scope : Scope) : List TypeExpr → List TypeRef
  | [] => []
  | t :: ts => bind b scope t :: bindAll b scope ts

/-- The elements of a tuple with the names in their types looked up. -/
def bindElements (b : Binder) (scope : Scope) :
    List (TypeExpr × Option String) → List (TypeRef × Option String)
  | [] => []
  | (t, name) :: elements => (bind b scope t, name) :: bindElements b scope elements

end

end Binder

end ContractStubs
