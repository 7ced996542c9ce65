import ContractStubs.Config.Basic
import ContractStubs.Disk.Basic
import ContractStubs.Json.Document

/-!
# Failures

Why an operation as a whole fails. What is wrong with a single type is no failure but a diagnostic in its text.
-/

namespace ContractStubs

/-- Why an operation fails. -/
inductive Failure where
  /-- The disk refuses. -/
  | disk (cause : DiskFault)
  /-- A configuration is refused. -/
  | config (cause : ConfigFault)
  /-- The text of a configuration denotes none. -/
  | configText (cause : DocumentFault)
  /-- The text of a document denotes no value. -/
  | document (cause : DocumentFault)
  /-- The file with a model holds none. -/
  | modelFile (path : String) (cause : DocumentFault)
  /-- No file can have this name. -/
  | badFileName (name : String)
  /-- A file of this name was added before. -/
  | alreadyAdded (name : String)
  /-- A sink refuses a file for a reason of its own. -/
  | refused (reason : String)
  deriving Repr, Inhabited

/-- The message of a failure. -/
def Failure.message : Failure → String
  | .disk cause => "IO error: " ++ cause.message
  | .config cause => "Configuration error: " ++ cause.message
  | .configText cause => "Configuration error: Failed to parse config: " ++ cause.message
  | .document cause => "Serialization error: " ++ cause.message
  | .modelFile path cause =>
    "Parse error: Failed to read declaration model " ++ path ++ ": " ++
      (match cause with
        | .malformed => cause.message
        | .unfit _ => "Serialization error: " ++ cause.message)
  | .badFileName name => "Sink error: " ++ quoted name ++ " is not a valid file name"
  | .alreadyAdded name => "Sink error: A source named " ++ name ++ " was already added"
  | .refused reason => "Sink error: " ++ reason

/-- A failure of the disk. -/
def Failure.ofDisk {α : Type} (outcome : Except DiskFault α) : Except Failure α := outcome.mapError .disk

end ContractStubs
