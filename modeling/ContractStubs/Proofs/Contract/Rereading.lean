import ContractStubs.Contract.Json
import ContractStubs.Proofs.Cache.Rereading
import ContractStubs.Proofs.Declaration.Rereading
import ContractStubs.Proofs.TypeRef.Rereading
import ContractStubs.Target.Basic

/-!
# Written contracts are read back

The results of the steps of a pass are written as documents: signatures with their parameters and results, the contracts
of interfaces, and the types that stubs are generated for. Each of them is read back from its document
(`Contract.ofJson_toJson`, `TargetType.ofJson_toJson`): a result with nothing to wait for is told from one with a value,
and a member that was refused from one that was understood.
-/

namespace ContractStubs

theorem NamespaceSet.ofJson_toJson (s : NamespaceSet) : ofJson s.toJson = .ok s :=
  congrArg (Except.map NamespaceSet.mk) (Json.asList_ofStrings s.names)

/-! ## Signatures -/

namespace Parameter

/-- The cells of the record of a parameter. -/
def cells (p : Parameter) : List (String × Option Json) :=
  [("name", some (.string p.name)), ("type", some p.type.toJson), ("modifier", p.modifier?.map .string),
   ("default_value", p.default?.map .string)]

theorem toJson_eq (p : Parameter) : p.toJson = .ofCells p.cells := by
  simp only [toJson, cells, Json.ofCells, optionalField_eq, cellFields_cons_cons, cellFields_some, List.cons_append,
    List.nil_append]

theorem ofJson_toJson (p : Parameter) : ofJson p.toJson = .ok p := by
  have hshape : shape.names.Nodup := by decide
  have hnames : (p.cells.map Prod.fst).Nodup := hshape
  rw [toJson_eq]
  refine Json.asRecord_ofCells rfl hshape ?_
  rw [RecordReader.required_of_mem hnames (Json.asText_string p.name) (by simp [cells]),
    RecordReader.required_of_mem hnames p.type.ofJson_toJson (by simp [cells]),
    RecordReader.optional_of_mem_text hnames p.modifier? (by simp [cells]),
    RecordReader.optional_of_mem_text hnames p.default? (by simp [cells])]
  rfl

end Parameter

theorem ResultShape.ofJson_toJson (s : ResultShape) : ofJson s.toJson = .ok s := by
  cases s with
  | nothing => rfl
  | value type => exact congrArg (Except.map ResultShape.value) type.ofJson_toJson
  | awaitable type? =>
    cases type? with
    | none => rfl
    | some type => exact congrArg (Except.map ResultShape.awaitable) type.asOption_toJson

namespace Signature

/-- The cells of the record of a signature. -/
def cells (s : Signature) : List (String × Option Json) :=
  [("name", some (.string s.name)), ("type_parameters", listCell (s.typeParameters.map .string)),
   ("parameters", some (.array (s.parameters.map Parameter.toJson))), ("return_type", some s.returnType.toJson),
   ("result", some s.result.toJson), ("declaring_interface", some s.declaringInterface.toJson),
   ("namespaces", some s.namespaces.toJson)]

theorem toJson_eq (s : Signature) : s.toJson = .ofCells s.cells := by
  simp only [toJson, cells, Json.ofCells, listField_eq, cellFields_cons_cons, cellFields_some, List.cons_append,
    List.nil_append]

theorem ofJson_toJson (s : Signature) : ofJson s.toJson = .ok s := by
  have hshape : shape.names.Nodup := by decide
  have hnames : (s.cells.map Prod.fst).Nodup := hshape
  have hparameters : Json.asList Parameter.ofJson (.array (s.parameters.map Parameter.toJson)) = .ok s.parameters :=
    Json.decodeAll_map fun p _ => p.ofJson_toJson
  rw [toJson_eq]
  refine Json.asRecord_ofCells rfl hshape ?_
  rw [RecordReader.required_of_mem hnames (Json.asText_string s.name) (by simp [cells]),
    RecordReader.withDefault_of_mem_texts hnames s.typeParameters (by simp [cells]),
    RecordReader.required_of_mem hnames hparameters (by simp [cells]),
    RecordReader.required_of_mem hnames s.returnType.ofJson_toJson (by simp [cells]),
    RecordReader.required_of_mem hnames s.result.ofJson_toJson (by simp [cells]),
    RecordReader.required_of_mem hnames s.declaringInterface.ofJson_toJson (by simp [cells]),
    RecordReader.required_of_mem hnames s.namespaces.ofJson_toJson (by simp [cells])]
  rfl

end Signature

/-! ## Contracts -/

namespace Contract

/-- A member is read back as the signature or the diagnostic that it is. -/
theorem memberOfJson_memberToJson (m : Except Diagnostic Signature) : memberOfJson (memberToJson m) = .ok m := by
  cases m with
  | ok s => exact congrArg (Except.map Except.ok) s.ofJson_toJson
  | error d => exact congrArg (Except.map Except.error) d.ofJson_toJson

/-- The cells of the record of a contract. -/
def cells (c : Contract) : List (String × Option Json) :=
  [("interface", some c.interface.toJson), ("members", some (.array (c.members.map memberToJson)))]

theorem toJson_eq (c : Contract) : c.toJson = .ofCells c.cells := rfl

/-- **A contract is read back from its document.** -/
theorem ofJson_toJson (c : Contract) : ofJson c.toJson = .ok c := by
  have hshape : shape.names.Nodup := by decide
  have hnames : (c.cells.map Prod.fst).Nodup := hshape
  have hmembers : Json.asList memberOfJson (.array (c.members.map memberToJson)) = .ok c.members :=
    Json.decodeAll_map fun m _ => memberOfJson_memberToJson m
  rw [toJson_eq]
  refine Json.asRecord_ofCells rfl hshape ?_
  rw [RecordReader.required_of_mem hnames c.interface.ofJson_toJson (by simp [cells]),
    RecordReader.required_of_mem hnames hmembers (by simp [cells])]
  rfl

end Contract

/-! ## Types that stubs are generated for -/

namespace TargetType

/-- The namespace, which is written in any case. -/
def namespaceJson : Option String → Json
  | some ns => .string ns
  | none => .null

theorem asOption_namespaceJson (ns? : Option String) : Json.asOption Json.asText (namespaceJson ns?) = .ok ns? := by
  cases ns? <;> rfl

/-- The cells of the record of a target. -/
def cells (t : TargetType) : List (String × Option Json) :=
  [("namespace", some (namespaceJson t.namespaceName?)),
   ("containing_types", listCell (t.containers.map Container.toJson)), ("name", some (.string t.name)),
   ("type_parameters", listCell (t.typeParameters.map .string)),
   ("kind", some (.string t.kind.toWord)), ("declarations", some (.array (t.declarations.map Json.ofNat)))]

theorem toJson_eq (t : TargetType) : t.toJson = .ofCells t.cells := by
  obtain ⟨ns?, containers, name, typeParameters, kind, ids⟩ := t
  cases ns? <;> simp only [toJson, namespaceJson, cells, Json.ofCells, listField_eq, cellFields_cons_cons,
    cellFields_some, List.append_assoc, List.cons_append, List.nil_append]

/-- **A type that stubs are generated for is read back from its document.** -/
theorem ofJson_toJson (t : TargetType) : ofJson t.toJson = .ok t := by
  have hshape : shape.names.Nodup := by decide
  have hnames : (t.cells.map Prod.fst).Nodup := hshape
  have hids : Json.asList Json.asCount (.array (t.declarations.map Json.ofNat)) = .ok t.declarations :=
    Json.decodeAll_map fun id _ => Json.asCount_ofNat id
  rw [toJson_eq]
  refine Json.asRecord_ofCells rfl hshape ?_
  rw [RecordReader.optional_of_mem hnames (asOption_namespaceJson t.namespaceName?) (by simp [cells]),
    RecordReader.withDefault_of_mem_listCell hnames (fun c (_ : c ∈ t.containers) => c.ofJson_toJson)
      (by simp [cells]),
    RecordReader.required_of_mem hnames (Json.asText_string t.name) (by simp [cells]),
    RecordReader.withDefault_of_mem_texts hnames t.typeParameters (by simp [cells]),
    RecordReader.required_of_mem hnames t.kind.ofJson_toWord (by simp [cells]),
    RecordReader.required_of_mem hnames hids (by simp [cells])]
  rfl

end TargetType

end ContractStubs
