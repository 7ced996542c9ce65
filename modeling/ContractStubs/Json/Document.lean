import ContractStubs.Json.Fault
import ContractStubs.Json.Reader

/-!
# Reading a value from a JSON text
-/

namespace ContractStubs

/-- Why a text does not denote a value of some type. -/
inductive DocumentFault where
  /-- The text is no JSON document of the right form. -/
  | malformed
  /-- The text is JSON and does not fit the type. -/
  | unfit (cause : JsonFault)
  deriving Repr, Inhabited

/-- The message of a fault; there is nothing to say about a text that is no document. -/
def DocumentFault.message : DocumentFault → String
  | .malformed => "..."
  | .unfit cause => cause.message

namespace Json

/-- The value that a text denotes. -/
def decodeText {α : Type} (decode : Json → Except JsonFault α) (text : String) : Except DocumentFault α :=
  let source := read text
  match decode source.root with
  | .error fault => .error (if fault.isFormal then .malformed else .unfit fault)
  | .ok a => if source.complete then .ok a else .error .malformed

end Json

end ContractStubs
