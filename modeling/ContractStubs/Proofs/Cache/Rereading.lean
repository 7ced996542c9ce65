import ContractStubs.Cache.Basic
import ContractStubs.Proofs.Json.Plain

/-!
# Written entries are read back

The document of an entry of a cache has a cell for each column, down to the diagnostics of its file, and it is a plain
one, so the entry is read from the text of its document (`CacheEntry.decodeText_toPretty`), whatever texts are in it.
-/

namespace ContractStubs

/-! ## Diagnostics -/

namespace DiagnosticScope

theorem ofJson_toJson (s : DiagnosticScope) : ofJson s.toJson = .ok s := by
  cases s <;> rfl

theorem isPlain_toJson (s : DiagnosticScope) : s.toJson.IsPlain := by
  cases s with
  | type => trivial
  | member name => exact ⟨⟨rfl, trivial⟩, trivial⟩

end DiagnosticScope

theorem Json.asList_ofStrings (texts : List String) : asList asText (ofStrings texts) = .ok texts :=
  decodeAll_map fun _ _ => rfl

theorem Json.isPlain_ofStrings (texts : List String) : (ofStrings texts).IsPlain :=
  arePlain_iff.mpr (List.forall_mem_map.mpr fun text _ => isPlain_string text)

namespace Diagnostic

/-- The cells of the record of a diagnostic. -/
def cells (d : Diagnostic) : List (String × Option Json) :=
  [("scope", some d.scope.toJson), ("message", some (.string d.message)), ("trace", some (.ofStrings d.trace)),
   ("fallback_stub", d.fallbackStub?.map .string)]

theorem toJson_eq (d : Diagnostic) : d.toJson = .ofCells d.cells := by
  simp only [toJson, cells, Json.ofCells, optionalField_eq, cellFields_cons_cons, cellFields_some, List.cons_append,
    List.nil_append]

theorem ofJson_toJson (d : Diagnostic) : ofJson d.toJson = .ok d := by
  have hshape : shape.names.Nodup := by decide
  have hnames : (d.cells.map Prod.fst).Nodup := hshape
  rw [toJson_eq]
  refine Json.asRecord_ofCells rfl hshape ?_
  rw [RecordReader.required_of_mem hnames d.scope.ofJson_toJson (by simp [cells]),
    RecordReader.required_of_mem hnames (Json.asText_string d.message) (by simp [cells]),
    RecordReader.withDefault_of_mem hnames (Json.asList_ofStrings d.trace) (by simp [cells]),
    RecordReader.optionalDefault_of_mem_text hnames d.fallbackStub? Json.asText_string (by simp [cells])]
  rfl

theorem isPlain_toJson (d : Diagnostic) : d.toJson.IsPlain := by
  rw [toJson_eq]
  refine Json.isPlain_ofCells ?_
  simp only [cells, List.forall_mem_cons]
  exact ⟨isPlain_of_some d.scope.isPlain_toJson, isPlain_of_some trivial,
    isPlain_of_some (Json.isPlain_ofStrings d.trace), isPlain_of_map Json.isPlain_string, by simp⟩

end Diagnostic

/-! ## Files -/

namespace StubFile

/-- The cells of the record of a file. -/
def cells (f : StubFile) : List (String × Option Json) :=
  [("identifier", some (.string f.identifier)), ("type_name", some (.string f.typeName)),
   ("text", some (.string f.text)), ("diagnostics", listCell (f.diagnostics.map Diagnostic.toJson))]

theorem toJson_eq (f : StubFile) : f.toJson = .ofCells f.cells := by
  simp only [toJson, cells, Json.ofCells, listField_eq, cellFields_cons_cons, cellFields_some, List.cons_append,
    List.nil_append]

theorem ofJson_toJson (f : StubFile) : ofJson f.toJson = .ok f := by
  have hshape : shape.names.Nodup := by decide
  have hnames : (f.cells.map Prod.fst).Nodup := hshape
  rw [toJson_eq]
  refine Json.asRecord_ofCells rfl hshape ?_
  rw [RecordReader.required_of_mem hnames (Json.asText_string f.identifier) (by simp [cells]),
    RecordReader.required_of_mem hnames (Json.asText_string f.typeName) (by simp [cells]),
    RecordReader.required_of_mem hnames (Json.asText_string f.text) (by simp [cells]),
    RecordReader.withDefault_of_mem_listCell hnames (fun d (_ : d ∈ f.diagnostics) => d.ofJson_toJson)
      (by simp [cells])]
  rfl

theorem isPlain_toJson (f : StubFile) : f.toJson.IsPlain := by
  rw [toJson_eq]
  refine Json.isPlain_ofCells ?_
  simp only [cells, List.forall_mem_cons]
  exact ⟨isPlain_of_some trivial, isPlain_of_some trivial, isPlain_of_some trivial,
    isPlain_of_listCell fun d _ => d.isPlain_toJson, by simp⟩

end StubFile

/-! ## Entries -/

namespace CacheEntry

/-- The cells of the record of an entry. -/
def cells (e : CacheEntry) : List (String × Option Json) :=
  [("type_name", some (.string e.typeName)), ("fingerprint", some (.string e.fingerprint)),
   ("unit", some e.file.toJson)]

theorem toJson_eq (e : CacheEntry) : e.toJson = .ofCells e.cells := rfl

theorem ofJson_toJson (e : CacheEntry) : ofJson e.toJson = .ok e := by
  have hshape : shape.names.Nodup := by decide
  have hnames : (e.cells.map Prod.fst).Nodup := hshape
  rw [toJson_eq]
  refine Json.asRecord_ofCells rfl hshape ?_
  rw [RecordReader.required_of_mem hnames (Json.asText_string e.typeName) (by simp [cells]),
    RecordReader.required_of_mem hnames (Json.asText_string e.fingerprint) (by simp [cells]),
    RecordReader.required_of_mem hnames e.file.ofJson_toJson (by simp [cells])]
  rfl

theorem isPlain_toJson (e : CacheEntry) : e.toJson.IsPlain := by
  rw [toJson_eq]
  refine Json.isPlain_ofCells ?_
  simp only [cells, List.forall_mem_cons]
  exact ⟨isPlain_of_some trivial, isPlain_of_some trivial, isPlain_of_some e.file.isPlain_toJson, by simp⟩

/-- **An entry is read from the text of its document.** -/
theorem decodeText_toPretty (e : CacheEntry) : Json.decodeText ofJson e.toJson.toPretty = .ok e :=
  Json.decodeText_toPretty e.isPlain_toJson.isWritable e.ofJson_toJson

end CacheEntry

end ContractStubs
