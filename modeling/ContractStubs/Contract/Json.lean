import ContractStubs.Contract.Basic
import ContractStubs.Diagnostic.Json
import ContractStubs.Signature.Json

/-!
# Contracts in JSON
-/

namespace ContractStubs

namespace Contract

/-- The variant of a member. -/
def memberToJson : Except Diagnostic Signature → Json
  | .ok s => .ofFields [("Ok", s.toJson)]
  | .error d => .ofFields [("Err", d.toJson)]

/-- The member that a document denotes. -/
def memberOfJson : Json → Except JsonFault (Except Diagnostic Signature) :=
  Json.asVariant [("Ok", .carrying fun j => (Signature.ofJson j).map .ok),
    ("Err", .carrying fun j => (Diagnostic.ofJson j).map .error)]

/-- The record of a contract. -/
def toJson (c : Contract) : Json :=
  .ofFields [("interface", c.interface.toJson), ("members", .array (c.members.map memberToJson))]

/-- The record type. -/
def shape : RecordShape := ⟨"InterfaceContract", ["interface", "members"]⟩

/-- The contract that a document denotes. -/
def ofJson : Json → Except JsonFault Contract :=
  Json.asRecord shape fun r =>
    Contract.mk <$> r.required "interface" TypeRef.ofJson <*> r.required "members" (Json.asList memberOfJson)

end Contract

end ContractStubs
