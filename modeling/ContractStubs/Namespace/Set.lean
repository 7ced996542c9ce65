import ContractStubs.Text.Blank

/-!
# Sets of namespaces

The namespaces that a generated text has to use, in ascending order and without the global one.
-/

namespace ContractStubs

/-- How the global namespace is spelled out. -/
def globalNamespace : String := "<global namespace>"

/-- The name denotes the global namespace, which needs no using line. -/
def isGlobalNamespace (name : String) : Bool := trimBlank name == "" || trimBlank name == globalNamespace

/-- Namespaces in ascending order. A set that was read from a document keeps the order it was written in. -/
structure NamespaceSet where
  names : List String
  deriving DecidableEq, Repr, Inhabited

/-- Each run of equal neighbours becomes one. -/
def dropRepeats {α : Type} [DecidableEq α] : List α → List α
  | [] => []
  | [a] => [a]
  | a :: b :: as => if a = b then dropRepeats (b :: as) else a :: dropRepeats (b :: as)

namespace NamespaceSet

/-- No namespace at all. -/
def empty : NamespaceSet := ⟨[]⟩

/-- The set of the given namespaces. -/
def ofList (names : List String) : NamespaceSet :=
  ⟨dropRepeats ((names.filter fun name => !isGlobalNamespace name).mergeSort fun a b => a ≤ b)⟩

/-- The number of namespaces. -/
def size (s : NamespaceSet) : Nat := s.names.length

/-- No namespace is in the set. -/
def isEmpty (s : NamespaceSet) : Bool := s.names.isEmpty

/-- The place to which halving leads among `size` names from `base` on. -/
def seek (names : List String) (name : String) : (fuel base size : Nat) → Nat
  | 0, base, _ => base
  | fuel + 1, base, size =>
    if size ≤ 1 then base
    else
      let middle := base + size / 2
      let base := if name < names.getD middle "" then base else middle
      seek names name fuel base (size - size / 2)

/-- The name is found by halving. -/
def contains (s : NamespaceSet) (name : String) : Bool :=
  s.names[seek s.names name s.names.length 0 s.names.length]? == some name

/-- One using line for each namespace. -/
def usingLines (s : NamespaceSet) : List String := s.names.map fun name => "using " ++ name ++ ";"

end NamespaceSet

end ContractStubs
