import ContractStubs.Config.File
import ContractStubs.Proofs.Contract.Rereading
import ContractStubs.Proofs.Disk.Making

/-!
# Written configurations are read back

The document of a configuration has a cell for each column, the table of known types being left out where it is empty.
Its keys ascend, so it is read as it was written (`tableOf_eq_self`), and with it the configuration
(`Config.ofJson_toJson`). The text of a configuration is that of a document whose only number is a capacity; so a
configuration that is accepted is loaded from the file to which it was saved (`Config.load_of_save`). With it, all that
a pass writes as a document is read back (`written_values_are_read`).
-/

namespace ContractStubs

/-! ## Tables -/

section Tables

variable {α : Type} {entries : List (String × α)}

/-- The keys ascend, each of them standing once. -/
def IsTable (entries : List (String × α)) : Prop := entries.Pairwise fun a b => a.1 < b.1

instance (entries : List (String × α)) : Decidable (IsTable entries) :=
  inferInstanceAs (Decidable (entries.Pairwise fun a b => a.1 < b.1))

theorem dropOverwritten_eq_self : ∀ {entries : List (String × α)}, IsTable entries → dropOverwritten entries = entries
  | [], _ => rfl
  | [_], _ => rfl
  | (k, a) :: (l, b) :: entries, h => by
    obtain ⟨hfirst, hrest⟩ := List.pairwise_cons.mp h
    have hne : k ≠ l := fun he => String.lt_irrefl _ (he ▸ hfirst (l, b) List.mem_cons_self)
    rw [dropOverwritten, if_neg hne, dropOverwritten_eq_self hrest]

/-- A table is the table of its entries. -/
theorem tableOf_eq_self (h : IsTable entries) : tableOf entries = entries := by
  have hsorted : entries.mergeSort (fun a b => a.1 ≤ b.1) = entries :=
    List.mergeSort_of_pairwise (h.imp fun hlt => decide_eq_true (String.not_lt.mp (String.lt_asymm hlt)))
  rw [tableOf, hsorted, dropOverwritten_eq_self h]

theorem Json.decodeEntries_map {decode : Json → Except JsonFault α} {toJson : α → Json}
    (h : ∀ a, decode (toJson a) = .ok a) : ∀ entries : List (String × α),
      decodeEntries decode ((entries.map fun (key, a) => (key, toJson a)).map fun (key, j) => (some key, j)) =
        .ok entries
  | [] => rfl
  | (key, a) :: entries => by
    rw [List.map_cons, List.map_cons, decodeEntries, h a, decodeEntries_map h entries]
    rfl

end Tables

/-! ## Configurations -/

namespace CachePolicy

/-- The cells of the record of a policy. -/
def cells (p : CachePolicy) : List (String × Option Json) :=
  [("enabled", some (.bool p.enabled)), ("capacity", some (.ofNat p.capacity)), ("dir", p.dir?.map .string)]

theorem toJson_eq (p : CachePolicy) : p.toJson = .ofCells p.cells := by
  simp only [toJson, cells, Json.ofCells, optionalField_eq, cellFields_cons_cons, cellFields_some, List.cons_append,
    List.nil_append]

theorem ofJson_toJson (p : CachePolicy) : ofJson p.toJson = .ok p := by
  have hshape : shape.names.Nodup := by decide
  have hnames : (p.cells.map Prod.fst).Nodup := hshape
  rw [toJson_eq]
  refine Json.asRecord_ofCells rfl hshape ?_
  rw [RecordReader.withDefault_of_mem hnames (Json.asBool_bool p.enabled) (by simp [cells]),
    RecordReader.withDefault_of_mem hnames (Json.asCount_ofNat p.capacity) (by simp [cells]),
    RecordReader.optionalDefault_of_mem_text hnames p.dir? Json.asPath_string (by simp [cells])]
  rfl

/-- The only number in the document of a policy is the capacity. -/
theorem isWritable_toJson {p : CachePolicy} (h : p.capacity ≤ Json.maxWord) : p.toJson.IsWritable := by
  rw [toJson_eq]
  refine Json.isWritable_ofCells ?_
  simp only [cells, List.forall_mem_cons]
  exact ⟨Json.isWritable_of_some trivial, Json.isWritable_of_some (Json.isWritable_ofNat h),
    fun value hvalue => (isPlain_of_map Json.isPlain_string value hvalue).isWritable, by simp⟩

end CachePolicy

namespace Config

variable {c : Config} {disk other : Disk} {path : String}

/-- The cell of the known types, which is empty where there are none. -/
def knownTypesCell : List (String × String) → Option Json
  | [] => none
  | entries => some (.ofFields (entries.map fun (name, ns) => (name, .string ns)))

theorem knownTypesField_eq (entries : List (String × String)) :
    knownTypesField entries = cellFields [("known_types", knownTypesCell entries)] := by
  cases entries <;> rfl

theorem knownTypesOfJson_ofFields {entries : List (String × String)} (h : IsTable entries) :
    knownTypesOfJson (.ofFields (entries.map fun (name, ns) => (name, .string ns))) = .ok entries := by
  have hentries : Json.asEntries Json.asText (.ofFields (entries.map fun (name, ns) => (name, .string ns))) =
      .ok entries := Json.decodeEntries_map Json.asText_string entries
  rw [knownTypesOfJson, hentries, Except.map, tableOf_eq_self h]

/-- The cells of the record of a configuration. -/
def cells (c : Config) : List (String × Option Json) :=
  [("marker", some (.string c.marker)), ("output_extension", some (.string c.outputExtension)),
   ("allow_synchronous_members", some (.bool c.allowSynchronousMembers)), ("parallel", some (.bool c.parallel)),
   ("known_types", knownTypesCell c.knownTypes), ("cache", some c.cache.toJson)]

theorem toJson_eq (c : Config) : c.toJson = .ofCells c.cells := by
  simp only [toJson, cells, Json.ofCells, knownTypesField_eq, cellFields_cons_cons, cellFields_some, List.cons_append,
    List.nil_append]

/-- The known types are read back. -/
theorem withDefault_knownTypes (h : IsTable c.knownTypes) :
    (cellReader shape c.cells).withDefault "known_types" knownTypesOfJson standard.knownTypes =
      .value c.knownTypes := by
  have hshape : shape.names.Nodup := by decide
  have hnames : (c.cells.map Prod.fst).Nodup := hshape
  have hmem : ("known_types", knownTypesCell c.knownTypes) ∈ c.cells := by simp [cells]
  cases hentries : c.knownTypes with
  | nil =>
    rw [hentries] at hmem
    exact RecordReader.withDefault_of_mem_none hnames hmem
  | cons entry entries =>
    rw [hentries] at h hmem
    exact RecordReader.withDefault_of_mem hnames (knownTypesOfJson_ofFields h) hmem

/-- **A configuration is read back from its document.** -/
theorem ofJson_toJson (h : IsTable c.knownTypes) : ofJson c.toJson = .ok c := by
  have hshape : shape.names.Nodup := by decide
  have hnames : (c.cells.map Prod.fst).Nodup := hshape
  rw [toJson_eq]
  refine Json.asRecord_ofCells rfl hshape ?_
  rw [RecordReader.withDefault_of_mem hnames (Json.asText_string c.marker) (by simp [cells]),
    RecordReader.withDefault_of_mem hnames (Json.asText_string c.outputExtension) (by simp [cells]),
    RecordReader.withDefault_of_mem hnames (Json.asBool_bool c.allowSynchronousMembers) (by simp [cells]),
    RecordReader.withDefault_of_mem hnames (Json.asBool_bool c.parallel) (by simp [cells]),
    withDefault_knownTypes h,
    RecordReader.withDefault_of_mem hnames c.cache.ofJson_toJson (by simp [cells])]
  rfl

/-! ## Files -/

theorem isWritable_of_knownTypesCell (entries : List (String × String)) (value : Json)
    (hvalue : knownTypesCell entries = some value) : value.IsWritable := by
  cases entries with
  | nil => cases hvalue
  | cons entry entries =>
    cases hvalue
    exact Json.isWritable_ofFields (List.forall_mem_map.mpr fun e _ => trivial)

theorem isWritable_toJson (h : c.cache.capacity ≤ Json.maxWord) : c.toJson.IsWritable := by
  rw [toJson_eq]
  refine Json.isWritable_ofCells ?_
  simp only [cells, List.forall_mem_cons]
  exact ⟨Json.isWritable_of_some trivial, Json.isWritable_of_some trivial, Json.isWritable_of_some trivial,
    Json.isWritable_of_some trivial, isWritable_of_knownTypesCell c.knownTypes,
    Json.isWritable_of_some (CachePolicy.isWritable_toJson h), by simp⟩

theorem load_of_readText {text : String} (h : disk.readText path = .ok text) : load disk path = ofText text := by
  rw [load, h]
  rfl

/-- **A configuration that is accepted is loaded from the file to which it was saved.** -/
theorem load_of_save (hvalid : c.validate = .ok ()) (htable : IsTable c.knownTypes)
    (hcapacity : c.cache.capacity ≤ Json.maxWord) (h : c.save disk path = .ok other) : load other path = .ok c := by
  have hwritten : disk.writeText path c.toText = .ok other := by
    cases hwrite : disk.writeText path c.toText with
    | error fault => rw [save, hwrite] at h; cases h
    | ok written => rw [save, hwrite] at h; exact congrArg _ (Except.ok.inj h)
  have hdecoded : Json.decodeText ofJson c.toText = .ok c :=
    Json.decodeText_toPretty (isWritable_toJson hcapacity) (ofJson_toJson htable)
  rw [load_of_readText (Disk.readText_of_writeText hwritten)]
  unfold ofText
  rw [hdecoded]
  dsimp only [Except.mapError, bind, Except.bind]
  rw [hvalid]

end Config

/-! ## All that is written -/

/-- **What a pass writes as a document is read back**: every value of each kind from its document, and a configuration
that is accepted from its file. The known types of a configuration are a table, and the capacity is a word. -/
theorem written_values_are_read :
    (∀ c : Config, IsTable c.knownTypes → Config.ofJson c.toJson = .ok c) ∧
      (∀ r : TypeRef, TypeRef.ofJson r.toJson = .ok r) ∧ (∀ p : Parameter, Parameter.ofJson p.toJson = .ok p) ∧
      (∀ s : Signature, Signature.ofJson s.toJson = .ok s) ∧
      (∀ s : ResultShape, ResultShape.ofJson s.toJson = .ok s) ∧ (∀ u : MarkerUse, MarkerUse.ofJson u.toJson = .ok u) ∧
      (∀ d : Diagnostic, Diagnostic.ofJson d.toJson = .ok d) ∧ (∀ c : Contract, Contract.ofJson c.toJson = .ok c) ∧
      (∀ t : TargetType, TargetType.ofJson t.toJson = .ok t) ∧ (∀ f : StubFile, StubFile.ofJson f.toJson = .ok f) ∧
      ∀ (c : Config) (disk other : Disk) (path : String), c.validate = .ok () → IsTable c.knownTypes →
        c.cache.capacity ≤ Json.maxWord → c.save disk path = .ok other → Config.load other path = .ok c :=
  ⟨fun _ => Config.ofJson_toJson, TypeRef.ofJson_toJson, Parameter.ofJson_toJson, Signature.ofJson_toJson,
    ResultShape.ofJson_toJson, MarkerUse.ofJson_toJson, Diagnostic.ofJson_toJson, Contract.ofJson_toJson,
    TargetType.ofJson_toJson, StubFile.ofJson_toJson, fun _ _ _ _ => Config.load_of_save⟩

/-- A configuration with known types and a directory for its cache is read back, from its document and from a file. -/
theorem clock_configuration_read :
    let c : Config := ⟨"Implements", ".stub.cs", true, false, [("IClock", "NodaTime"), ("IStore", "Data")],
      ⟨true, 16, some ".cache"⟩⟩
    let disk : Disk := ⟨[], []⟩
    c.validate = .ok () ∧ IsTable c.knownTypes ∧ Config.ofJson c.toJson = .ok c ∧
      ∃ other, c.save disk ".implgen.json" = .ok other ∧ Config.load other ".implgen.json" = .ok c := by
  intro c disk
  have hvalid : c.validate = .ok () := by decide +kernel
  have htable : IsTable c.knownTypes := by decide
  obtain ⟨hjson, -, -, -, -, -, -, -, -, -, hfile⟩ := written_values_are_read
  obtain ⟨other, hsave⟩ : ∃ other, c.save disk ".implgen.json" = .ok other := ⟨_, rfl⟩
  exact ⟨hvalid, htable, hjson c htable, other, hsave, hfile c disk other _ hvalid htable (by decide) hsave⟩

end ContractStubs
