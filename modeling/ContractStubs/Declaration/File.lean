import ContractStubs.Declaration.Json
import ContractStubs.Failure

/-!
# Model files
-/

namespace ContractStubs

namespace Model

/-- The model that a text denotes. -/
def ofText (text : String) : Except DocumentFault Model := Json.decodeText ofJson text

/-- The text of a model. -/
def toText (m : Model) : String := m.toJson.toPretty

/-- The model in a file. -/
def load (disk : Disk) (path : String) : Except Failure Model := do
  let text ← Failure.ofDisk (disk.readText path)
  (ofText text).mapError (Failure.modelFile path)

end Model

end ContractStubs
