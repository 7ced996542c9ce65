import ContractStubs.Json.Record

/-!
# What was read from a record

A record that was read has fields that were read: where the reader of a record succeeds, each column does, and a value
in a column is a default or comes from a part of the document.
-/

namespace ContractStubs

namespace Column

variable {α β : Type}

@[simp] theorem map_eq_value {f : α → β} {x : Column α} {b : β} :
    f <$> x = .value b ↔ ∃ a, x = .value a ∧ f a = b := by
  cases x <;> simp [Functor.map, map]

@[simp] theorem seq_eq_value {f : Column (α → β)} {x : Column α} {b : β} :
    f <*> x = .value b ↔ ∃ g a, f = .value g ∧ x = .value a ∧ g a = b := by
  cases f with
  | value g => cases x <;> simp [Seq.seq, apply]
  | fault place cause =>
    cases x with
    | value a => simp [Seq.seq, apply]
    | fault place' cause' =>
      simp only [Seq.seq, apply]
      split <;> simp

theorem toExcept_eq_ok {x : Column α} {a : α} : x.toExcept = .ok a ↔ x = .value a := by
  cases x <;> simp [toExcept]

end Column

theorem mem_of_findField? {name : String} {value : Json} {found : Nat} :
    ∀ {place : Nat} {fields : List (Option String × Json)}, findField? name place fields = some (found, value) →
      ∃ key, (key, value) ∈ fields
  | _, [], h => by cases h
  | place, (key, other) :: fields, h => by
    rw [findField?] at h
    split at h
    · cases h
      exact ⟨key, List.mem_cons_self⟩
    · obtain ⟨key', hmem⟩ := mem_of_findField? h
      exact ⟨key', List.mem_cons_of_mem _ hmem⟩

theorem Json.map_eq_ok {α β : Type} {f : α → β} {x : Except JsonFault α} {b : β} :
    x.map f = .ok b ↔ ∃ a, x = .ok a ∧ f a = b := by
  cases x <;> simp [Except.map]

namespace RecordReader

variable {α : Type} {r : RecordReader} {name : String} {decode : Json → Except JsonFault α} {a default : α}

theorem absent_ne_value (shape : RecordShape) (row : Row) : row.absent shape name ≠ .value a := by
  cases row <;> simp [Row.absent]

theorem exists_of_required (h : r.required name decode = .value a) : ∃ j, decode j = .ok a := by
  rw [required] at h
  cases hcell : r.row.cell? r.shape name with
  | none => rw [hcell] at h; exact absurd h (absent_ne_value r.shape r.row)
  | some cell =>
    rw [hcell] at h
    cases hd : decode cell.2 with
    | error cause => simp [Column.ofCell, hd] at h
    | ok a' => exact ⟨cell.2, by simpa [Column.ofCell, hd] using h⟩

theorem eq_or_exists_cell_of_withDefault (h : r.withDefault name decode default = .value a) :
    a = default ∨ ∃ place j, r.row.cell? r.shape name = some (place, j) ∧ decode j = .ok a := by
  rw [withDefault] at h
  cases hcell : r.row.cell? r.shape name with
  | none => rw [hcell] at h; cases h; exact .inl rfl
  | some cell =>
    rw [hcell] at h
    cases hd : decode cell.2 with
    | error cause => simp [Column.ofCell, hd] at h
    | ok a' => exact .inr ⟨cell.1, cell.2, rfl, by simpa [Column.ofCell, hd] using h⟩

theorem eq_or_exists_of_withDefault (h : r.withDefault name decode default = .value a) :
    a = default ∨ ∃ j, decode j = .ok a := by
  rcases eq_or_exists_cell_of_withDefault h with h | ⟨place, j, -, h⟩
  · exact .inl h
  · exact .inr ⟨j, h⟩

theorem exists_of_optionalDefault {a : α} (h : r.optionalDefault name decode = .value (some a)) :
    ∃ j, decode j = .ok a := by
  rcases eq_or_exists_of_withDefault h with h | ⟨j, h⟩
  · cases h
  · rw [Json.asOption.eq_def] at h
    split at h
    next => cases h
    next =>
      obtain ⟨a', ha, he⟩ := Json.map_eq_ok.mp h
      cases he
      exact ⟨_, ha⟩

theorem value_of_finish {build : RecordReader → Column α} (h : r.finish build = .ok a) : build r = .value a := by
  obtain ⟨f, a', hf, ha, rfl⟩ := Column.seq_eq_value.mp (Column.toExcept_eq_ok.mp h)
  obtain ⟨_, -, rfl⟩ := Column.map_eq_value.mp hf
  exact ha

end RecordReader

namespace Json

variable {α : Type} {decode : Json → Except JsonFault α}

/-- The parts of a document: the items of an array, the values of an object. -/
def parts : Json → List Json
  | .array items => items
  | .object fields => fields.map Prod.snd
  | _ => []

/-- The cells of a record that was read are parts of its document. -/
theorem exists_reader_of_asRecord {shape : RecordShape} {build : RecordReader → Column α} {j : Json} {a : α}
    (h : asRecord shape build j = .ok a) : ∃ r, build r = .value a ∧
      ∀ name place part, r.row.cell? r.shape name = some (place, part) → part ∈ j.parts := by
  cases j with
  | object fields =>
    refine ⟨⟨shape, .keyed fields⟩, RecordReader.value_of_finish h, fun name place part hpart => ?_⟩
    obtain ⟨key, hfield⟩ := mem_of_findField? hpart
    exact List.mem_map.mpr ⟨_, hfield, rfl⟩
  | array items =>
    refine ⟨⟨shape, .listed items⟩, RecordReader.value_of_finish h, fun name place part hpart => ?_⟩
    obtain ⟨value, hvalue, hpair⟩ := Option.map_eq_some_iff.mp hpart
    cases hpair
    exact List.mem_of_getElem? hvalue
  | _ => cases h

theorem exists_of_asRecord {shape : RecordShape} {build : RecordReader → Column α} {j : Json} {a : α}
    (h : asRecord shape build j = .ok a) : ∃ r, build r = .value a := by
  obtain ⟨r, hr, -⟩ := exists_reader_of_asRecord h
  exact ⟨r, hr⟩

theorem length_decodeAll : ∀ {items : List Json} {as : List α}, decodeAll decode items = .ok as →
    as.length = items.length
  | [], as, h => by
    obtain rfl : [] = as := Except.ok.inj h
    rfl
  | item :: items, as, h => by
    rw [decodeAll] at h
    cases hitem : decode item with
    | error cause => rw [hitem] at h; cases h
    | ok a =>
      cases hitems : decodeAll decode items with
      | error cause => rw [hitem, hitems] at h; cases h
      | ok others =>
        rw [hitem, hitems] at h
        cases h
        exact congrArg Nat.succ (length_decodeAll hitems)

theorem exists_of_mem_decodeAll : ∀ {items : List Json} {as : List α}, decodeAll decode items = .ok as →
    ∀ a ∈ as, ∃ j, decode j = .ok a
  | [], as, h => by
    obtain rfl : [] = as := Except.ok.inj h
    simp
  | item :: items, as, h => by
    rw [decodeAll] at h
    cases hitem : decode item with
    | error cause => rw [hitem] at h; cases h
    | ok a =>
      cases hitems : decodeAll decode items with
      | error cause => rw [hitem, hitems] at h; cases h
      | ok others =>
        rw [hitem, hitems] at h
        cases h
        exact List.forall_mem_cons.mpr ⟨⟨item, hitem⟩, exists_of_mem_decodeAll hitems⟩

theorem exists_of_mem_asList {j : Json} {as : List α} (h : asList decode j = .ok as) :
    ∀ a ∈ as, ∃ j, decode j = .ok a := by
  cases j with
  | array items => exact exists_of_mem_decodeAll h
  | _ => cases h

/-- What is in a list of a record, none where the list is left out, was read. -/
theorem exists_of_mem_listField {r : RecordReader} {name : String} {as : List α}
    (h : r.withDefault name (asList decode) [] = .value as) : ∀ a ∈ as, ∃ j, decode j = .ok a := by
  rcases RecordReader.eq_or_exists_of_withDefault h with rfl | ⟨j, hj⟩
  · simp
  · exact exists_of_mem_asList hj

end Json

end ContractStubs
