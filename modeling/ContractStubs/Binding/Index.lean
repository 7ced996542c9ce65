import ContractStubs.Declaration.Basic

/-!
# Index of declarations

Declarations are found by their namespace, their name with those of the enclosing types, and the number of their type
parameters.
-/

namespace ContractStubs

/-- What a declaration is found by. -/
structure DeclarationKey where
  namespaceName? : Option String
  nestedName : String
  arity : Nat
  deriving DecidableEq, Repr, Inhabited

/-- The key of a declaration; an empty namespace is the global one. -/
def Declaration.key (d : Declaration) : DeclarationKey :=
  ⟨d.namespaceName?.filter (· ≠ ""), d.nestedName, d.typeParameters.length⟩

/-- The keys under which something is declared. -/
structure DeclarationIndex where
  keys : List DeclarationKey
  deriving DecidableEq, Repr, Inhabited

namespace DeclarationIndex

/-- The index of some declarations. -/
def ofList (declarations : List Declaration) : DeclarationIndex := ⟨declarations.map Declaration.key⟩

/-- Something is declared under the key. -/
def contains (index : DeclarationIndex) (namespaceName? : Option String) (name : String) (arity : Nat) : Bool :=
  index.keys.contains ⟨namespaceName?, name, arity⟩

end DeclarationIndex

/-- The declarations with a given key, in their order. -/
def declarationsWithKey (declarations : List Declaration) (key : DeclarationKey) : List Declaration :=
  declarations.filter fun d => d.key == key

end ContractStubs
