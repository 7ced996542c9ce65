import ContractStubs.Program.Provider

/-!
# Requests for stubs

The types that carry the marker and the interfaces that they want stubs for. Declarations with the marker are
candidates; the candidates that declare one type make up one request.
-/

namespace ContractStubs

/-- A type and all uses of the marker on its declarations. -/
structure StubRequest where
  target : TargetType
  uses : List MarkerUse
  deriving DecidableEq, Repr, Inhabited

namespace StubRequest

/-- The interfaces that stubs are wanted for, in the order in which they are written. -/
def interfaces (r : StubRequest) : List TypeRef := r.uses.filterMap MarkerUse.target?

/-- The qualified name of the type. -/
def qualifiedName (r : StubRequest) : String := r.target.qualifiedName

/-- The request together with what a further declaration of the type asks for. -/
def merge (r s : StubRequest) : StubRequest :=
  ⟨{ r.target with declarations := r.target.declarations ++ s.target.declarations }, r.uses ++ s.uses⟩

/-- The record of a request. -/
def toJson (r : StubRequest) : Json :=
  .ofFields [("resolved", r.target.toJson), ("usages", .array (r.uses.map MarkerUse.toJson))]

end StubRequest

/-- The declaration is of a kind that takes the marker, and one of its attributes has the marker's name. -/
def isCandidate (marker : Marker) (d : Declaration) : Bool :=
  d.kind.acceptsMarker && d.attributes.any fun a => marker.isMatch a.name

/-- A list without what was in it before. -/
def firstOnly {α : Type} [DecidableEq α] : (seen : List α) → List α → List α
  | _, [] => []
  | seen, a :: as => if a ∈ seen then firstOnly seen as else a :: firstOnly (a :: seen) as

/-- The request joins the one for the same type, or goes to the end of the list. -/
def addRequest (r : StubRequest) : List StubRequest → List StubRequest
  | [] => [r]
  | s :: rs => if s.qualifiedName = r.qualifiedName then s.merge r :: rs else s :: addRequest r rs

namespace Provider

/-- The ids of all candidates. -/
def candidates (p : Provider) (marker : Marker) : List Nat :=
  firstOnly [] ((p.declarations.filter (isCandidate marker)).map (·.id))

/-- What one candidate asks for; nothing where its type or the marker's uses cannot be told. -/
def requestOf? (p : Provider) (marker : Marker) (id : Nat) : Option StubRequest :=
  (p.target? id).bind fun target => (p.markerUses? id marker).map fun uses => ⟨target, uses⟩

/-- What some candidates ask for, each type once, in the order in which the types come first. -/
def requests (p : Provider) (marker : Marker) (ids : List Nat) : List StubRequest :=
  (ids.filterMap (p.requestOf? marker)).foldl (fun rs r => addRequest r rs) []

end Provider

end ContractStubs
