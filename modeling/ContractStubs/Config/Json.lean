import ContractStubs.Config.Basic
import ContractStubs.Text.Table

/-!
# Configuration in JSON

Every field may be left out and then has the value of the standard configuration.
-/

namespace ContractStubs

namespace CachePolicy

/-- The record of a policy. -/
def toJson (p : CachePolicy) : Json :=
  .ofFields ([("enabled", .bool p.enabled), ("capacity", .ofNat p.capacity)]
    ++ optionalField "dir" (p.dir?.map .string))

/-- The record type. -/
def shape : RecordShape := ⟨"CacheConfig", ["enabled", "capacity", "dir"]⟩

/-- The policy that a document denotes. -/
def ofJson : Json → Except JsonFault CachePolicy :=
  Json.asRecord shape fun r =>
    CachePolicy.mk <$> r.withDefault "enabled" Json.asBool standard.enabled
      <*> r.withDefault "capacity" Json.asCount standard.capacity <*> r.optionalDefault "dir" Json.asPath

end CachePolicy

namespace Config

/-- The namespaces of known types; left out where there are none. -/
def knownTypesField : List (String × String) → List (String × Json)
  | [] => []
  | entries => [("known_types", .ofFields (entries.map fun (name, ns) => (name, .string ns)))]

/-- The record of a configuration. -/
def toJson (c : Config) : Json :=
  .ofFields ([("marker", .string c.marker), ("output_extension", .string c.outputExtension),
      ("allow_synchronous_members", .bool c.allowSynchronousMembers), ("parallel", .bool c.parallel)]
    ++ knownTypesField c.knownTypes ++ [("cache", c.cache.toJson)])

/-- The record type. -/
def shape : RecordShape :=
  ⟨"Config", ["marker", "output_extension", "allow_synchronous_members", "parallel", "known_types", "cache"]⟩

/-- The table of known types that a document denotes. -/
def knownTypesOfJson (j : Json) : Except JsonFault (List (String × String)) := (j.asEntries Json.asText).map tableOf

/-- The configuration that a document denotes. -/
def ofJson : Json → Except JsonFault Config :=
  Json.asRecord shape fun r =>
    Config.mk <$> r.withDefault "marker" Json.asText standard.marker
      <*> r.withDefault "output_extension" Json.asText standard.outputExtension
      <*> r.withDefault "allow_synchronous_members" Json.asBool standard.allowSynchronousMembers
      <*> r.withDefault "parallel" Json.asBool standard.parallel
      <*> r.withDefault "known_types" knownTypesOfJson standard.knownTypes
      <*> r.withDefault "cache" CachePolicy.ofJson standard.cache

end Config

end ContractStubs
