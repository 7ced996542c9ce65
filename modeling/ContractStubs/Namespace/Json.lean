import ContractStubs.Json.Decode
import ContractStubs.Namespace.Set

/-!
# Sets of namespaces in JSON

A set is the list of its names.
-/

namespace ContractStubs

namespace NamespaceSet

/-- The list of the names. -/
def toJson (s : NamespaceSet) : Json := Json.ofStrings s.names

/-- The names as they stand in the list. -/
def ofJson (j : Json) : Except JsonFault NamespaceSet := (j.asList Json.asText).map NamespaceSet.mk

end NamespaceSet

end ContractStubs
