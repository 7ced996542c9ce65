import ContractStubs.Text.Blank
import ContractStubs.Text.Cut
import ContractStubs.TypeRef.Json

/-!
# Markers

The attribute that asks for stubs, and its uses. An attribute class may be written with or without the ending
`Attribute`, so a marker has a short and a base name.
-/

namespace ContractStubs

/-- The attribute that asks for stubs. -/
structure Marker where
  shortName : String
  deriving DecidableEq, Repr, Inhabited

namespace Marker

/-- The marker with a name in either form. -/
def ofName (name : String) : Marker := ⟨(stripEnding? "Attribute" name).getD name⟩

/-- The name of the attribute class. -/
def baseName (m : Marker) : String := m.shortName ++ "Attribute"

/-- The last part of an attribute's name is one of the two forms. -/
def isMatch (m : Marker) (attributeName : String) : Bool :=
  let last := trimBlank (lastPiece (fun c => c = '.' || c = ':') attributeName)
  last == m.shortName || last == m.baseName

end Marker

/-- One use of the marker. -/
inductive MarkerUse where
  /-- Without a target interface. -/
  | bare
  /-- With the interface that stubs are wanted for. -/
  | targeting (interface : TypeRef)
  deriving DecidableEq, Repr, Inhabited

namespace MarkerUse

/-- The interface that stubs are wanted for. -/
def target? : MarkerUse → Option TypeRef
  | .bare => none
  | .targeting interface => some interface

/-- The variant of a use. -/
def toJson : MarkerUse → Json
  | .bare => .string "bare"
  | .targeting interface => .ofFields [("parameterized", interface.toJson)]

/-- The use that a document denotes. -/
def ofJson : Json → Except JsonFault MarkerUse :=
  Json.asVariant [("bare", .plain .bare), ("parameterized", .carrying fun j => (TypeRef.ofJson j).map .targeting)]

end MarkerUse

end ContractStubs
