import ContractStubs.Proofs.Json.Reading
import ContractStubs.Proofs.Json.Record
import ContractStubs.TypeRef.Json
import Mathlib.Data.List.Nodup

/-!
# Written records are read column by column

A record is written as the cells of its columns, the empty ones left out (`Json.ofCells`). It is read by the names:
where the names of the cells are those of the record type, in which no name stands twice, each column is read from its
own cell (`RecordReader.required_of_mem`, `RecordReader.withDefault_of_mem` and what follows from them), and the record
is what its columns make (`Json.asRecord_ofCells`).
-/

namespace ContractStubs

/-- The fields of a record: the cells that are not empty. -/
def cellFields : List (String × Option Json) → List (String × Json)
  | [] => []
  | (name, some value) :: cells => (name, value) :: cellFields cells
  | (_, none) :: cells => cellFields cells

/-- The cell of a list, which is empty where the list is. -/
def listCell : List Json → Option Json
  | [] => none
  | values => some (.array values)

/-- The cell of a text, which is empty where the text is. -/
def textCell (text : String) : Option Json := if text = "" then none else some (.string text)

/-- The record with the given cells. -/
def Json.ofCells (cells : List (String × Option Json)) : Json := .ofFields (cellFields cells)

section Cells

variable {name : String} {cell : Option Json} {cells : List (String × Option Json)}

theorem cellFields_append (a b : List (String × Option Json)) : cellFields (a ++ b) = cellFields a ++ cellFields b := by
  induction a with
  | nil => rfl
  | cons c a ih =>
    obtain ⟨name, _ | value⟩ := c
    · exact ih
    · exact congrArg _ ih

theorem cellFields_cons_cons (c c' : String × Option Json) (cells : List (String × Option Json)) :
    cellFields (c :: c' :: cells) = cellFields [c] ++ cellFields (c' :: cells) := cellFields_append [c] (c' :: cells)

theorem cellFields_some (name : String) (value : Json) : cellFields [(name, some value)] = [(name, value)] := rfl

theorem optionalField_eq (name : String) (cell : Option Json) :
    optionalField name cell = cellFields [(name, cell)] := by
  cases cell <;> rfl

theorem listField_eq (name : String) (values : List Json) :
    listField name values = cellFields [(name, listCell values)] := by
  cases values <;> rfl

theorem textField_eq (name text : String) : textField name text = cellFields [(name, textCell text)] := by
  rw [textField, textCell]
  split <;> rfl

theorem mem_cellFields {value : Json} : (name, value) ∈ cellFields cells ↔ (name, some value) ∈ cells := by
  induction cells with
  | nil => simp [cellFields]
  | cons c cells ih => obtain ⟨n, _ | v⟩ := c <;> simp [cellFields, ih]

theorem cellFields_names_sublist : List.Sublist ((cellFields cells).map Prod.fst) (cells.map Prod.fst) := by
  induction cells with
  | nil => exact List.Sublist.refl []
  | cons c cells ih =>
    obtain ⟨n, _ | v⟩ := c
    · exact ih.cons n
    · exact ih.cons_cons n

/-! ## Rows -/

section Rows

variable {fields : List (String × Json)}

/-- The fields of a document as they are read. -/
def Row.ofFields (fields : List (String × Json)) : Row := .keyed (fields.map fun (key, value) => (some key, value))

theorem findField?_of_mem {value : Json} : ∀ {fields : List (String × Json)} (place : Nat),
    (fields.map Prod.fst).Nodup → (name, value) ∈ fields →
      ∃ found, findField? name place (fields.map fun (key, value) => (some key, value)) = some (found, value)
  | (key, other) :: fields, place, hnames, h => by
    obtain ⟨hfresh, hnames⟩ := List.nodup_cons.mp hnames
    rw [List.map_cons, findField?]
    rcases List.mem_cons.mp h with hhead | h
    · cases hhead
      exact ⟨place, if_pos rfl⟩
    · have hne : key ≠ name := fun he => hfresh (he ▸ List.mem_map.mpr ⟨_, h, rfl⟩)
      rw [if_neg (by simpa using hne)]
      exact findField?_of_mem (place + 1) hnames h

theorem findField?_of_not_mem : ∀ {fields : List (String × Json)} (place : Nat), name ∉ fields.map Prod.fst →
    findField? name place (fields.map fun (key, value) => (some key, value)) = none
  | [], _, _ => rfl
  | (key, value) :: fields, place, h => by
    rw [List.map_cons, List.mem_cons, not_or] at h
    obtain ⟨hne, h⟩ := h
    rw [List.map_cons, findField?, if_neg (by simpa using Ne.symm hne)]
    exact findField?_of_not_mem (place + 1) h

theorem checkFields_eq_value {names : List String} : ∀ {fields : List (String × Json)} {seen : List String}
    (place : Nat), (∀ f ∈ fields, f.1 ∈ names) → (seen ++ fields.map Prod.fst).Nodup →
      Row.checkFields names seen place (fields.map fun (key, value) => (some key, value)) = .value ()
  | [], _, _, _, _ => rfl
  | (key, value) :: fields, seen, place, hknown, hnames => by
    obtain ⟨hkey, hknown⟩ := List.forall_mem_cons.mp hknown
    have hfresh : key ∉ seen := fun hseen =>
      (List.nodup_append.mp hnames).2.2 key hseen key List.mem_cons_self rfl
    rw [List.map_cons, Row.checkFields, if_pos (by simpa using hkey), if_neg (by simpa using hfresh)]
    refine checkFields_eq_value (place + 1) hknown ?_
    exact List.perm_middle.nodup_iff.mp hnames

end Rows

/-! ## Columns -/

namespace Json

theorem asText_string (text : String) : asText (.string text) = .ok text := rfl

theorem asPath_string (text : String) : asPath (.string text) = .ok text := rfl

theorem asBool_bool (b : Bool) : asBool (.bool b) = .ok b := rfl

theorem asCount_ofNat (n : Nat) : asCount (ofNat n) = .ok n := rfl

end Json

theorem Json.decodeAll_map {α : Type} {decode : Json → Except JsonFault α} {toJson : α → Json} : ∀ {as : List α},
    (∀ a ∈ as, decode (toJson a) = .ok a) → decodeAll decode (as.map toJson) = .ok as
  | [], _ => rfl
  | a :: as, h => by
    obtain ⟨ha, has⟩ := List.forall_mem_cons.mp h
    rw [List.map_cons, decodeAll, ha, decodeAll_map has]
    rfl

section Columns

variable {α : Type} {decode : Json → Except JsonFault α} {a default : α} {shape : RecordShape}

/-- The reader of a record with the given cells. -/
def cellReader (shape : RecordShape) (cells : List (String × Option Json)) : RecordReader :=
  ⟨shape, .ofFields (cellFields cells)⟩

variable (hnames : (cells.map Prod.fst).Nodup)

include hnames

theorem exists_cell?_of_mem {value : Json} (shape : RecordShape) (h : (name, some value) ∈ cells) :
    ∃ place, (cellReader shape cells).row.cell? (cellReader shape cells).shape name = some (place, value) :=
  findField?_of_mem 0 (hnames.sublist cellFields_names_sublist) (mem_cellFields.mpr h)

theorem cell?_of_mem (h : (name, none) ∈ cells) :
    (cellReader shape cells).row.cell? (cellReader shape cells).shape name = none := by
  refine findField?_of_not_mem 0 fun hmem => ?_
  obtain ⟨⟨key, value⟩, hfield, rfl⟩ := List.mem_map.mp hmem
  cases List.inj_on_of_nodup_map hnames h (mem_cellFields.mp hfield) rfl

namespace RecordReader

theorem required_of_mem {value : Json} (hvalue : decode value = .ok a) (h : (name, some value) ∈ cells) :
    (cellReader shape cells).required name decode = .value a := by
  obtain ⟨place, hcell⟩ := exists_cell?_of_mem hnames shape h
  rw [required, hcell, Option.map_some]
  dsimp only
  rw [hvalue]
  rfl

theorem withDefault_of_mem {value : Json} (hvalue : decode value = .ok a) (h : (name, some value) ∈ cells) :
    (cellReader shape cells).withDefault name decode default = .value a := by
  obtain ⟨place, hcell⟩ := exists_cell?_of_mem hnames shape h
  rw [withDefault, hcell, Option.map_some]
  dsimp only
  rw [hvalue]
  rfl

theorem withDefault_of_mem_none (h : (name, none) ∈ cells) :
    (cellReader shape cells).withDefault name decode default = .value default := by
  rw [withDefault, cell?_of_mem hnames h]
  rfl

theorem withDefault_of_mem_listCell {toJson : α → Json} {as : List α} (has : ∀ a ∈ as, decode (toJson a) = .ok a)
    (h : (name, listCell (as.map toJson)) ∈ cells) :
    (cellReader shape cells).withDefault name (Json.asList decode) [] = .value as := by
  cases as with
  | nil => exact withDefault_of_mem_none hnames h
  | cons a as =>
    have hitems : Json.asList decode (.array ((a :: as).map toJson)) = .ok (a :: as) := Json.decodeAll_map has
    exact withDefault_of_mem hnames hitems h

theorem withDefault_of_mem_texts (texts : List String) (h : (name, listCell (texts.map .string)) ∈ cells) :
    (cellReader shape cells).withDefault name (Json.asList Json.asText) [] = .value texts :=
  withDefault_of_mem_listCell hnames (fun _ _ => rfl) h

theorem withDefault_of_mem_textCell (text : String) (h : (name, textCell text) ∈ cells) :
    (cellReader shape cells).withDefault name Json.asText "" = .value text := by
  rw [textCell] at h
  split at h
  next hempty =>
    rw [hempty]
    exact withDefault_of_mem_none hnames h
  next =>
    have htext : Json.asText (.string text) = .ok text := rfl
    exact withDefault_of_mem hnames htext h

theorem optionalDefault_of_mem {toJson : α → Json} {a? : Option α}
    (ha : ∀ a, a? = some a → Json.asOption decode (toJson a) = .ok (some a)) (h : (name, a?.map toJson) ∈ cells) :
    (cellReader shape cells).optionalDefault name decode = .value a? := by
  cases a? with
  | none => exact withDefault_of_mem_none hnames h
  | some a => exact withDefault_of_mem hnames (ha a rfl) h

theorem optionalDefault_of_mem_text {decode : Json → Except JsonFault String} (text? : Option String)
    (hdecode : ∀ text, decode (.string text) = .ok text) (h : (name, text?.map .string) ∈ cells) :
    (cellReader shape cells).optionalDefault name decode = .value text? := by
  refine optionalDefault_of_mem hnames (fun text _ => ?_) h
  exact congrArg (Except.map some) (hdecode text)

theorem optional_of_mem {value : Json} {a? : Option α} (hvalue : Json.asOption decode value = .ok a?)
    (h : (name, some value) ∈ cells) : (cellReader shape cells).optional name decode = .value a? := by
  obtain ⟨place, hcell⟩ := exists_cell?_of_mem hnames shape h
  rw [optional, hcell, Option.map_some]
  dsimp only
  rw [hvalue]
  rfl

theorem optional_of_mem_none (h : (name, none) ∈ cells) :
    (cellReader shape cells).optional name decode = .value none := by
  rw [optional, cell?_of_mem hnames h]
  rfl

theorem optional_of_mem_text (text? : Option String) (h : (name, text?.map .string) ∈ cells) :
    (cellReader shape cells).optional name Json.asText = .value text? := by
  cases text? with
  | none => exact optional_of_mem_none hnames h
  | some text =>
    have htext : Json.asOption Json.asText (.string text) = .ok (some text) := rfl
    exact optional_of_mem hnames htext h

end RecordReader

end Columns

namespace Json

variable {α : Type}

/-- **A record that was written is what its columns make.** -/
theorem asRecord_ofCells {shape : RecordShape} {build : RecordReader → Column α} {a : α}
    (hcells : cells.map Prod.fst = shape.names) (hnames : shape.names.Nodup)
    (h : build (cellReader shape cells) = .value a) : asRecord shape build (ofCells cells) = .ok a := by
  have hknown : ∀ f ∈ cellFields cells, f.1 ∈ shape.names := fun f hf =>
    hcells ▸ cellFields_names_sublist.subset (List.mem_map.mpr ⟨f, hf, rfl⟩)
  have hcheck : (cellReader shape cells).row.check shape = .value () :=
    checkFields_eq_value 0 hknown (by
      rw [List.nil_append]
      exact (hcells ▸ hnames).sublist cellFields_names_sublist)
  have hread : asRecord shape build (ofCells cells) = (cellReader shape cells).finish build := rfl
  have hshape : (cellReader shape cells).shape = shape := rfl
  rw [hread, RecordReader.finish, hshape, hcheck, h]
  rfl

end Json

end Cells

end ContractStubs
