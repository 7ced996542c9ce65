import ContractStubs.Marker.Basic
import ContractStubs.Text.Quoted

/-!
# Configuration

What a project may set, the values it gets otherwise, and the values that are refused.
-/

namespace ContractStubs

/-- How generated files are kept for the next pass. -/
structure CachePolicy where
  enabled : Bool
  /-- The number of files kept in memory. -/
  capacity : Nat
  /-- The directory that files are kept in as well. -/
  dir? : Option String
  deriving DecidableEq, Repr, Inhabited

/-- The settings of a project. -/
structure Config where
  /-- The name of the marker, in either form. -/
  marker : String
  /-- What the name of a generated file ends with. -/
  outputExtension : String
  /-- A member with a result that cannot be waited for gets a stub all the same. -/
  allowSynchronousMembers : Bool
  /-- Several types may be worked on at once. -/
  parallel : Bool
  /-- Namespaces of types that no source declares, by simple name in ascending order. -/
  knownTypes : List (String × String)
  cache : CachePolicy
  deriving DecidableEq, Repr, Inhabited

/-- Why a configuration is refused. -/
inductive ConfigFault where
  /-- The marker has no name. -/
  | blankMarker
  /-- The extension does not start with a dot. -/
  | extensionWithoutDot (extension : String)
  /-- The cache is on and has no room. -/
  | noCapacity
  deriving DecidableEq, Repr, Inhabited

/-- The message of a fault. -/
def ConfigFault.message : ConfigFault → String
  | .blankMarker => "marker must not be empty"
  | .extensionWithoutDot extension => "output_extension must start with '.', got " ++ quoted extension
  | .noCapacity => "cache.capacity must be positive when the cache is enabled"

/-- The cache of a project that sets nothing. -/
def CachePolicy.standard : CachePolicy := ⟨true, 256, none⟩

namespace Config

/-- The configuration of a project that sets nothing. -/
def standard : Config := ⟨"AddImplementation", ".g.cs", false, false, [], .standard⟩

/-- The marker that is looked for. -/
def markerSought (c : Config) : Marker := .ofName c.marker

/-- A configuration is accepted, or refused for the first reason there is. -/
def validate (c : Config) : Except ConfigFault Unit :=
  if trimBlank c.marker = "" then .error .blankMarker
  else if !startsWith "." c.outputExtension then .error (.extensionWithoutDot c.outputExtension)
  else if c.cache.enabled && c.cache.capacity == 0 then .error .noCapacity
  else .ok ()

end Config

end ContractStubs
