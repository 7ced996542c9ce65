import ContractStubs.Config.Json
import ContractStubs.Failure

/-!
# Configuration files

A project has at most one file with its settings. It is looked for in a directory and in the directories above.
-/

namespace ContractStubs

namespace Config

/-- The names that a configuration file may have; the first one found counts. -/
def fileNames : List String := [".implgen.json", "implgen.json"]

/-- The configuration that a text denotes, if it is accepted. -/
def ofText (text : String) : Except Failure Config := do
  let c ← (Json.decodeText ofJson text).mapError Failure.configText
  (c.validate).mapError Failure.config
  .ok c

/-- The configuration in a file. -/
def load (disk : Disk) (path : String) : Except Failure Config := do
  let text ← Failure.ofDisk (disk.readText path)
  ofText text

/-- The text of a configuration file. -/
def toText (c : Config) : String := c.toJson.toPretty

/-- The disk with a configuration in a file. -/
def save (c : Config) (disk : Disk) (path : String) : Except Failure Disk :=
  Failure.ofDisk (disk.writeText path c.toText)

/-- The nearest configuration file in a directory or above it. -/
def findFile? (disk : Disk) (start : String) : Option String :=
  ((Path.ancestors start).flatMap fun directory => fileNames.map (Path.join directory)).find? disk.exists?

/-- The configuration of a directory: that of the nearest file, or the standard one. -/
def loadOrStandard (disk : Disk) (start : String) : Except Failure Config :=
  match findFile? disk start with
  | some path => load disk path
  | none => .ok standard

end Config

end ContractStubs
