import ContractStubs.Marker.Basic
import ContractStubs.Proofs.Json.Cells
import ContractStubs.Proofs.TypeRef.Nodes

/-!
# Written references are read back

The document of a reference has a cell for each column, the empty ones left out, and so have those of its arguments. The
arguments are read along with the document (`TypeRef.listOfJson_eq`), so by induction the reference is read back from
its document (`TypeRef.ofJson_toJson`).
-/

namespace ContractStubs

theorem TypeRefKind.ofJson_toWord (k : TypeRefKind) : ofJson (.string k.toWord) = .ok k := by
  cases k <;> rfl

namespace TypeRef

/-! ## Arguments -/

theorem allToJson_eq_map (rs : List TypeRef) : allToJson rs = rs.map toJson := by
  induction rs with
  | nil => rfl
  | cons r rs ih => rw [allToJson, ih, List.map_cons]

theorem allOfJson_eq : ∀ items : List Json, allOfJson items = Json.decodeAll ofJson items
  | [] => rfl
  | item :: items => by rw [allOfJson, Json.decodeAll, allOfJson_eq items]

/-- The arguments are read as any other list is. -/
theorem listOfJson_eq (j : Json) : listOfJson j = j.asList ofJson := by
  cases j with
  | array items => exact allOfJson_eq items
  | _ => rfl

theorem argsField?_eq : ∀ (place : Nat) (fields : List (Option String × Json)),
    argsField? place fields = (findField? "args" place fields).map fun (place, j) => (place, j.asList ofJson)
  | _, [] => rfl
  | place, (key, value) :: fields => by
    rw [argsField?, findField?]
    split
    · rw [listOfJson_eq, Option.map_some]
    · exact argsField?_eq (place + 1) fields

/-! ## References -/

/-- The cells of the record of a reference. -/
def cells (r : TypeRef) : List (String × Option Json) :=
  [("name", some (.string r.name)), ("namespace", r.namespaceName?.map .string), ("args", listCell (r.args.map toJson)),
   ("suffix", textCell r.suffix), ("element_names", listCell (r.elementNames.map elementNameJson)),
   ("kind", some (.string r.kind.toWord))]

theorem toJson_eq (r : TypeRef) : r.toJson = .ofCells r.cells := by
  obtain ⟨name, ns, args, suffix, names, kind⟩ := r
  simp only [toJson, cells, Json.ofCells, allToJson_eq_map, optionalField_eq, listField_eq, textField_eq,
    cellFields_cons_cons, cellFields_some, List.append_assoc, List.cons_append, List.nil_append]

/-- A reference is read as a record whose arguments are a column like the others. -/
theorem ofJson_ofCells (cells : List (String × Option Json)) : ofJson (.ofCells cells) =
    Json.asRecord shape (fun r => TypeRef.mk <$> r.required "name" Json.asText <*> r.optional "namespace" Json.asText
      <*> (cellReader shape cells).withDefault "args" (Json.asList ofJson) [] <*> r.withDefault "suffix" Json.asText ""
      <*> r.withDefault "element_names" (Json.asList (Json.asOption Json.asText)) []
      <*> r.required "kind" TypeRefKind.ofJson) (.ofCells cells) := by
  rw [Json.ofCells, Json.ofFields, ofJson, argsField?_eq]
  rfl

theorem asOption_elementNameJson (name? : Option String) :
    Json.asOption Json.asText (elementNameJson name?) = .ok name? := by
  cases name? <;> rfl

/-- **A reference is read back from its document.** -/
theorem ofJson_toJson : ∀ r : TypeRef, ofJson r.toJson = .ok r :=
  induction fun r ih => by
    have hshape : shape.names.Nodup := by decide
    have hnames : (r.cells.map Prod.fst).Nodup := hshape
    rw [toJson_eq, ofJson_ofCells]
    refine Json.asRecord_ofCells rfl hshape ?_
    rw [RecordReader.required_of_mem hnames (Json.asText_string r.name) (by simp [cells]),
      RecordReader.optional_of_mem_text hnames r.namespaceName? (by simp [cells]),
      RecordReader.withDefault_of_mem_listCell hnames ih (by simp [cells]),
      RecordReader.withDefault_of_mem_textCell hnames r.suffix (by simp [cells]),
      RecordReader.withDefault_of_mem_listCell hnames
        (fun name? (_ : name? ∈ r.elementNames) => asOption_elementNameJson name?) (by simp [cells]),
      RecordReader.required_of_mem hnames r.kind.ofJson_toWord (by simp [cells])]
    exact congrArg Column.value r.eta

/-- The document of a reference is no empty value. -/
theorem asOption_toJson (r : TypeRef) : Json.asOption ofJson r.toJson = .ok (some r) := by
  have hread : Json.asOption ofJson r.toJson = (ofJson r.toJson).map some := by rw [toJson_eq]; rfl
  rw [hread, ofJson_toJson]
  rfl

end TypeRef

/-- A use of a marker is read back from its document. -/
theorem MarkerUse.ofJson_toJson (u : MarkerUse) : ofJson u.toJson = .ok u := by
  cases u with
  | bare => rfl
  | targeting interface => exact congrArg (Except.map MarkerUse.targeting) interface.ofJson_toJson

end ContractStubs
