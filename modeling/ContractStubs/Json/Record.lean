import ContractStubs.Json.Decode

/-!
# Records in JSON documents

A record is an object with known fields, or the list of its fields in their order. Each field is read by itself and
keeps the place of what is wrong with it; of several faults the first in the document counts, and a missing field comes
after everything that is there.
-/

namespace ContractStubs

/-- What a field of a record is, or what is wrong and the place where it shows. -/
inductive Column (α : Type) where
  | value (a : α)
  | fault (place : Nat) (cause : JsonFault)

namespace Column

/-- The content changed, faults kept. -/
def map {α β : Type} (f : α → β) : Column α → Column β
  | .value a => .value (f a)
  | .fault place cause => .fault place cause

/-- Two columns together; of two faults the one further to the front counts, at the same place the left one. -/
def apply {α β : Type} : Column (α → β) → Column α → Column β
  | .value f, .value a => .value (f a)
  | .value _, .fault place cause => .fault place cause
  | .fault place cause, .value _ => .fault place cause
  | .fault place cause, .fault place' cause' => if place ≤ place' then .fault place cause else .fault place' cause'

instance : Applicative Column where
  pure := .value
  map := map
  seq f a := apply f (a ())

/-- The content, or the fault without its place. -/
def toExcept {α : Type} : Column α → Except JsonFault α
  | .value a => .ok a
  | .fault _ cause => .error cause

/-- The column of a cell that was found at a place and read. -/
def ofCell {α : Type} (absent : Column α) : Option (Nat × Except JsonFault α) → Column α
  | none => absent
  | some (_, .ok a) => .value a
  | some (place, .error cause) => .fault place cause

end Column

/-- The name of a record type and those of its fields, in their order. -/
structure RecordShape where
  title : String
  names : List String
  deriving Repr, Inhabited

/-- The content of a record before its fields are read. -/
inductive Row where
  | keyed (fields : List (Option String × Json))
  | listed (items : List Json)
  deriving Repr, Inhabited

/-- The first field of a given name, with its place counted from `place`. -/
def findField? (name : String) : (place : Nat) → List (Option String × Json) → Option (Nat × Json)
  | _, [] => none
  | place, (key, value) :: fields => if key = some name then some (place, value) else findField? name (place + 1) fields

namespace Row

/-- The cell of a field. -/
def cell? (shape : RecordShape) (name : String) : Row → Option (Nat × Json)
  | .keyed fields => findField? name 0 fields
  | .listed items => items[shape.names.idxOf name]?.map fun value => (shape.names.idxOf name, value)

/-- A field that is not there and cannot be done without. -/
def absent {α : Type} (shape : RecordShape) (name : String) : Row → Column α
  | .keyed fields => .fault fields.length (.missing name)
  | .listed _ => .fault (shape.names.idxOf name) (.short (shape.names.idxOf name) shape.title shape.names.length)

/-- A field that may be left out of an object and not out of a list. -/
def absentOption {α : Type} (shape : RecordShape) (name : String) : Row → Column (Option α)
  | .keyed _ => .value none
  | row => row.absent shape name

/-- Faults of the fields of an object as such: a key that cannot be read, a known field for the second time, and
malformed content of an unknown field. -/
def checkFields (names seen : List String) : (place : Nat) → List (Option String × Json) → Column Unit
  | _, [] => .value ()
  | place, (none, _) :: _ => .fault place .malformed
  | place, (some key, value) :: fields =>
    if names.contains key then
      if seen.contains key then .fault place (.duplicate key) else checkFields names (key :: seen) (place + 1) fields
    else if value.isWellFormed then checkFields names seen (place + 1) fields
    else .fault place .malformed

/-- Faults of a row as such. -/
def check (shape : RecordShape) : Row → Column Unit
  | .keyed fields => checkFields shape.names [] 0 fields
  | .listed items =>
    if items.length > shape.names.length then .fault shape.names.length (.surplus items.length) else .value ()

end Row

/-- A record being read: its shape and its content. -/
structure RecordReader where
  shape : RecordShape
  row : Row

namespace RecordReader

/-- A field that cannot be done without. -/
def required {α : Type} (r : RecordReader) (name : String) (decode : Json → Except JsonFault α) : Column α :=
  .ofCell (r.row.absent r.shape name) ((r.row.cell? r.shape name).map fun (place, j) => (place, decode j))

/-- A field that has a value of its own where it is left out. -/
def withDefault {α : Type} (r : RecordReader) (name : String) (decode : Json → Except JsonFault α) (default : α) :
    Column α :=
  .ofCell (.value default) ((r.row.cell? r.shape name).map fun (place, j) => (place, decode j))

/-- A field that may be `null` or left out of an object. -/
def optional {α : Type} (r : RecordReader) (name : String) (decode : Json → Except JsonFault α) :
    Column (Option α) :=
  .ofCell (r.row.absentOption r.shape name)
    ((r.row.cell? r.shape name).map fun (place, j) => (place, Json.asOption decode j))

/-- A field that may be `null` or left out, also of a list. -/
def optionalDefault {α : Type} (r : RecordReader) (name : String) (decode : Json → Except JsonFault α) :
    Column (Option α) :=
  r.withDefault name (Json.asOption decode) none

/-- The record, once nothing is wrong with the row as such. -/
def finish {α : Type} (r : RecordReader) (build : RecordReader → Column α) : Except JsonFault α :=
  (((fun _ a => a) <$> r.row.check r.shape <*> build r : Column α)).toExcept

end RecordReader

/-- A record with the given shape. -/
def Json.asRecord {α : Type} (shape : RecordShape) (build : RecordReader → Column α) : Json → Except JsonFault α
  | .object fields => RecordReader.finish ⟨shape, .keyed fields⟩ build
  | .array items => RecordReader.finish ⟨shape, .listed items⟩ build
  | j => .error (j.unlike ("struct " ++ shape.title))

end ContractStubs
