import ContractStubs.Declaration.File
import ContractStubs.Proofs.Declaration.Numbering
import ContractStubs.Proofs.Declaration.Read
import ContractStubs.Proofs.Json.Cells

/-!
# Written declarations are read back

The document of a record has a cell for each column (`Declaration.cells` and the like, with `toJson_eq`), and each kind
of record is read back from it (`ofJson_toJson`): types because they were read from text, kinds because their words are
known, and lists, texts and optional fields because what is left out is empty. So a model is read back from its document
(`Model.ofJson_toJson`), ids included, since they are the places.
-/

namespace ContractStubs

/-! ## Columns -/

theorem TypeExpr.ofJson_toJson {t : TypeExpr} (h : t.IsRead) : ofJson t.toJson = .ok t := by
  obtain ⟨text, rfl⟩ := h
  exact congrArg Except.ok (parse_toText_parse text)

theorem TypeExpr.asOption_toJson {t : TypeExpr} (h : t.IsRead) : Json.asOption ofJson t.toJson = .ok (some t) :=
  congrArg (Except.map some) (ofJson_toJson h)

theorem DeclarationKind.ofJson_toWord (k : DeclarationKind) : ofJson (.string k.toWord) = .ok k := by
  cases k <;> rfl

theorem MemberKind.ofJson_toWord (k : MemberKind) : ofJson (.string k.toWord) = .ok k := by
  cases k <;> rfl

/-! ## Records -/

namespace Container

/-- The cells of the record of a container. -/
def cells (c : Container) : List (String × Option Json) :=
  [("name", some (.string c.name)), ("kind", some (.string c.kind.toWord)),
   ("type_parameters", listCell (c.typeParameters.map .string))]

theorem toJson_eq (c : Container) : c.toJson = .ofCells c.cells := by
  simp only [toJson, cells, Json.ofCells, listField_eq, cellFields_cons_cons, cellFields_some, List.cons_append,
    List.nil_append]

theorem ofJson_toJson (c : Container) : ofJson c.toJson = .ok c := by
  have hshape : shape.names.Nodup := by decide
  have hnames : (c.cells.map Prod.fst).Nodup := hshape
  rw [toJson_eq]
  refine Json.asRecord_ofCells rfl hshape ?_
  rw [RecordReader.required_of_mem hnames (Json.asText_string c.name) (by simp [cells]),
    RecordReader.required_of_mem hnames c.kind.ofJson_toWord (by simp [cells]),
    RecordReader.withDefault_of_mem_texts hnames c.typeParameters (by simp [cells])]
  rfl

end Container

namespace Attribute

/-- The cells of the record of an attribute. -/
def cells (a : Attribute) : List (String × Option Json) :=
  [("name", some (.string a.name)), ("type_arguments", listCell (a.typeArguments.map TypeExpr.toJson))]

theorem toJson_eq (a : Attribute) : a.toJson = .ofCells a.cells := by
  simp only [toJson, cells, Json.ofCells, listField_eq, cellFields_cons_cons, cellFields_some]

theorem ofJson_toJson {a : Attribute} (h : a.IsRead) : ofJson a.toJson = .ok a := by
  have hshape : shape.names.Nodup := by decide
  have hnames : (a.cells.map Prod.fst).Nodup := hshape
  rw [toJson_eq]
  refine Json.asRecord_ofCells rfl hshape ?_
  rw [RecordReader.required_of_mem hnames (Json.asText_string a.name) (by simp [cells]),
    RecordReader.withDefault_of_mem_listCell hnames (fun t ht => TypeExpr.ofJson_toJson (h t ht)) (by simp [cells])]
  rfl

end Attribute

namespace ParameterDeclaration

/-- The cells of the record of a parameter. -/
def cells (q : ParameterDeclaration) : List (String × Option Json) :=
  [("name", some (.string q.name)), ("type", some q.type.toJson), ("modifier", q.modifier?.map .string),
   ("default_value", q.default?.map .string)]

theorem toJson_eq (q : ParameterDeclaration) : q.toJson = .ofCells q.cells := by
  simp only [toJson, cells, Json.ofCells, optionalField_eq, cellFields_cons_cons, cellFields_some, List.cons_append,
    List.nil_append]

theorem ofJson_toJson {q : ParameterDeclaration} (h : q.type.IsRead) : ofJson q.toJson = .ok q := by
  have hshape : shape.names.Nodup := by decide
  have hnames : (q.cells.map Prod.fst).Nodup := hshape
  rw [toJson_eq]
  refine Json.asRecord_ofCells rfl hshape ?_
  rw [RecordReader.required_of_mem hnames (Json.asText_string q.name) (by simp [cells]),
    RecordReader.required_of_mem hnames (TypeExpr.ofJson_toJson h) (by simp [cells]),
    RecordReader.optionalDefault_of_mem_text hnames q.modifier? Json.asText_string (by simp [cells]),
    RecordReader.optionalDefault_of_mem_text hnames q.default? Json.asText_string (by simp [cells])]
  rfl

end ParameterDeclaration

namespace MemberDeclaration

/-- The cells of the record of a member. -/
def cells (m : MemberDeclaration) : List (String × Option Json) :=
  [("name", some (.string m.name)), ("kind", some (.string m.kind.toWord)), ("is_static", some (.bool m.isStatic)),
   ("type_parameters", listCell (m.typeParameters.map .string)), ("return_type", m.returnType?.map TypeExpr.toJson),
   ("parameters", listCell (m.parameters.map ParameterDeclaration.toJson))]

theorem toJson_eq (m : MemberDeclaration) : m.toJson = .ofCells m.cells := by
  simp only [toJson, cells, Json.ofCells, listField_eq, optionalField_eq, cellFields_cons_cons, cellFields_some,
    List.append_assoc, List.cons_append, List.nil_append]

theorem ofJson_toJson {m : MemberDeclaration} (h : m.IsRead) : ofJson m.toJson = .ok m := by
  have hshape : shape.names.Nodup := by decide
  have hnames : (m.cells.map Prod.fst).Nodup := hshape
  rw [toJson_eq]
  refine Json.asRecord_ofCells rfl hshape ?_
  rw [RecordReader.required_of_mem hnames (Json.asText_string m.name) (by simp [cells]),
    RecordReader.required_of_mem hnames m.kind.ofJson_toWord (by simp [cells]),
    RecordReader.withDefault_of_mem hnames (Json.asBool_bool m.isStatic) (by simp [cells]),
    RecordReader.withDefault_of_mem_texts hnames m.typeParameters (by simp [cells]),
    RecordReader.optionalDefault_of_mem hnames (fun t ht => TypeExpr.asOption_toJson (h.returnType t ht))
      (by simp [cells]),
    RecordReader.withDefault_of_mem_listCell hnames
      (fun q hq => ParameterDeclaration.ofJson_toJson (h.parameters q hq)) (by simp [cells])]
  rfl

end MemberDeclaration

namespace Declaration

/-- The cells of the record of a declaration. -/
def cells (d : Declaration) : List (String × Option Json) :=
  [("id", some (.ofNat d.id)), ("kind", some (.string d.kind.toWord)), ("name", some (.string d.name)),
   ("namespace", d.namespaceName?.map .string), ("containing_types", listCell (d.containers.map Container.toJson)),
   ("type_parameters", listCell (d.typeParameters.map .string)),
   ("attributes", listCell (d.attributes.map Attribute.toJson)),
   ("base_types", listCell (d.baseTypes.map TypeExpr.toJson)),
   ("members", listCell (d.members.map MemberDeclaration.toJson)), ("usings", listCell (d.usings.map .string)),
   ("text", textCell d.text), ("file", d.file?.map .string), ("malformed", some (.bool d.malformed))]

theorem toJson_eq (d : Declaration) : d.toJson = .ofCells d.cells := by
  simp only [toJson, cells, Json.ofCells, listField_eq, optionalField_eq, textField_eq, cellFields_cons_cons,
    cellFields_some, List.append_assoc, List.cons_append, List.nil_append]

theorem ofJson_toJson {d : Declaration} (h : d.IsRead) : ofJson d.toJson = .ok d := by
  have hshape : shape.names.Nodup := by decide
  have hnames : (d.cells.map Prod.fst).Nodup := hshape
  rw [toJson_eq]
  refine Json.asRecord_ofCells rfl hshape ?_
  rw [RecordReader.withDefault_of_mem hnames (Json.asCount_ofNat d.id) (by simp [cells]),
    RecordReader.required_of_mem hnames d.kind.ofJson_toWord (by simp [cells]),
    RecordReader.required_of_mem hnames (Json.asText_string d.name) (by simp [cells]),
    RecordReader.optionalDefault_of_mem_text hnames d.namespaceName? Json.asText_string (by simp [cells]),
    RecordReader.withDefault_of_mem_listCell hnames (fun c (_ : c ∈ d.containers) => c.ofJson_toJson) (by simp [cells]),
    RecordReader.withDefault_of_mem_texts hnames d.typeParameters (by simp [cells]),
    RecordReader.withDefault_of_mem_listCell hnames (fun a ha => Attribute.ofJson_toJson (h.attributes a ha))
      (by simp [cells]),
    RecordReader.withDefault_of_mem_listCell hnames (fun t ht => TypeExpr.ofJson_toJson (h.baseTypes t ht))
      (by simp [cells]),
    RecordReader.withDefault_of_mem_listCell hnames (fun m hm => MemberDeclaration.ofJson_toJson (h.members m hm))
      (by simp [cells]),
    RecordReader.withDefault_of_mem_texts hnames d.usings (by simp [cells]),
    RecordReader.withDefault_of_mem_textCell hnames d.text (by simp [cells]),
    RecordReader.optionalDefault_of_mem_text hnames d.file? Json.asPath_string (by simp [cells]),
    RecordReader.withDefault_of_mem hnames (Json.asBool_bool d.malformed) (by simp [cells])]
  rfl

end Declaration

namespace Model

/-- The numbers that declarations have already are the ones they are given. -/
theorem number_eq : ∀ {ds : List Declaration} {next : Nat}, (∀ i d, ds[i]? = some d → d.id = next + i) →
    number next ds = ds
  | [], _, _ => rfl
  | d :: ds, next, h => by
    have hid : d.id = next := h 0 d rfl
    have hrest : number (next + 1) ds = ds := number_eq fun i e he => by
      rw [h (i + 1) e he]
      omega
    rw [number, hrest, ← hid]

theorem IsNumbered.ofList_declarations {m : Model} (h : m.IsNumbered) : ofList m.declarations = m := by
  have hnumber : number 0 m.declarations = m.declarations := number_eq fun i d hd => by
    rw [h i d hd, Nat.zero_add]
  rw [ofList, hnumber]

/-- The cells of the record of a model. -/
def cells (m : Model) : List (String × Option Json) :=
  [("declarations", some (.array (m.declarations.map Declaration.toJson)))]

theorem toJson_eq (m : Model) : m.toJson = .ofCells m.cells := rfl

/-- **A model that holds what was read is read back from its document.** -/
theorem ofJson_toJson {m : Model} (hread : m.IsRead) (hnumbered : m.IsNumbered) : ofJson m.toJson = .ok m := by
  have hshape : shape.names.Nodup := by decide
  have hnames : (m.cells.map Prod.fst).Nodup := hshape
  have hitems : Json.asList Declaration.ofJson (.array (m.declarations.map Declaration.toJson)) = .ok m.declarations :=
    Json.decodeAll_map fun d hd => Declaration.ofJson_toJson (hread d hd)
  refine Json.map_eq_ok.mpr ⟨m.declarations, ?_, hnumbered.ofList_declarations⟩
  rw [toJson_eq]
  exact Json.asRecord_ofCells rfl hshape (RecordReader.withDefault_of_mem hnames hitems (by simp [cells]))

end Model

end ContractStubs
