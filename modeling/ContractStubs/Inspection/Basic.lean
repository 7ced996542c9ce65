import ContractStubs.Config.Basic
import ContractStubs.Stub.Source

/-!
# Inspections

What generating would do for each type, without any text being made: the name of the file, the members that would get a
stub, and what is wrong with the others.
-/

namespace ContractStubs

/-- One target interface of a type. -/
structure InterfaceInspection where
  interface : String
  /-- The headers of the methods, apart from `async`. -/
  members : List String
  diagnostics : List String
  deriving DecidableEq, Repr, Inhabited

/-- A type that carries the marker. -/
structure TypeInspection where
  typeName : String
  identifier : String
  interfaces : List InterfaceInspection
  deriving DecidableEq, Repr, Inhabited

namespace InterfaceInspection

/-- The inspection of an interface, given its contract or why there is none. -/
def ofContract (interface : TypeRef) : Except Diagnostic Contract → InterfaceInspection
  | .ok contract =>
    ⟨interface.toText, contract.signatures.map Signature.header, contract.diagnostics.map Diagnostic.toText⟩
  | .error d => ⟨interface.toText, [], [d.toText]⟩

/-- The record of an inspection. -/
def toJson (i : InterfaceInspection) : Json :=
  .ofFields ([("interface", .string i.interface), ("members", .ofStrings i.members)]
    ++ listField "diagnostics" (i.diagnostics.map .string))

end InterfaceInspection

namespace TypeInspection

/-- The record of an inspection. -/
def toJson (i : TypeInspection) : Json :=
  .ofFields [("type_name", .string i.typeName), ("identifier", .string i.identifier),
    ("interfaces", .array (i.interfaces.map InterfaceInspection.toJson))]

end TypeInspection

/-- The inspections of all types that carry the marker. -/
def inspect (provider : Provider) (config : Config) : List TypeInspection :=
  (provider.requests config.markerSought (provider.candidates config.markerSought)).map fun r =>
    ⟨r.qualifiedName, r.target.fileName config.outputExtension,
      r.interfaces.map fun interface =>
        .ofContract interface (provider.contractOf config.allowSynchronousMembers interface)⟩

end ContractStubs
