import ContractStubs.Binding.Bind
import ContractStubs.Program.Provider
import ContractStubs.Text.Identifier

/-!
# Programs

The declarations of a program together with the types it knows besides. A program answers which type a declaration
declares, how a marker is used on it, and which declarations a reference refers to.
-/

namespace ContractStubs

/-- A program. -/
structure Program where
  model : Model
  known : KnownTypes
  deriving Repr, Inhabited

namespace Program

/-- The program of a model, with further well-known types. -/
def ofModel (model : Model) (knownTypes : List (String × String)) : Program := ⟨model, .withExtra knownTypes⟩

/-- What looks up the names of the program. -/
def binder (p : Program) : Binder := ⟨.ofList p.model.declarations, p.known⟩

/-- The declarations of the type that is referred to. -/
def declarationsOf (p : Program) (r : TypeRef) : List Declaration :=
  if r.kind = .named then declarationsWithKey p.model.declarations ⟨r.namespaceName?, r.name, r.arity⟩ else []

/-- The type that a declaration declares, its names being valid. -/
def targetOf? (d : Declaration) : Option TargetType :=
  if !d.malformed && d.kind.acceptsMarker && isIdentifier d.name && d.containers.all (fun c => isIdentifier c.name) then
    some ⟨d.namespaceName?.filter (· ≠ ""), d.containers, d.name, d.typeParameters, d.kind, [d.id]⟩
  else none

/-- The type that the declaration with an id declares. -/
def target? (p : Program) (id : Nat) : Option TargetType := (p.model.get? id).bind targetOf?

/-- The uses of a marker in one attribute: one for each type argument, and a bare one where there is none. -/
def attributeUses (b : Binder) (scope : Scope) (marker : Marker) (a : Attribute) : List MarkerUse :=
  if !marker.isMatch a.name then []
  else match a.typeArguments with
    | [] => [.bare]
    | args => args.map fun t => .targeting (b.bind scope t)

/-- The uses of a marker on a declaration. -/
def usesOn (p : Program) (marker : Marker) (d : Declaration) : List MarkerUse :=
  d.attributes.flatMap (attributeUses p.binder (.ofDeclaration d) marker)

/-- The uses of a marker on the declaration with an id, if there are any. -/
def markerUses? (p : Program) (id : Nat) (marker : Marker) : Option (List MarkerUse) :=
  (p.model.get? id).bind fun d =>
    match p.usesOn marker d with
    | [] => none
    | uses => some uses

end Program

end ContractStubs
