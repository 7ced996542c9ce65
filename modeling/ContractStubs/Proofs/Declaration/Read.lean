import ContractStubs.Declaration.Json
import ContractStubs.Proofs.Json.Record
import ContractStubs.Proofs.Source.Collecting
import ContractStubs.Proofs.TypeExpr.Reading
import ContractStubs.Source.File

/-!
# Models hold what was read

The type expressions of a model were read from text (`Model.IsRead`), whether the model was a document
(`isRead_of_ofJson`) or comes from source files (`isRead_ofFiles`).
-/

namespace ContractStubs

/-- The expression was read from a text. -/
def TypeExpr.IsRead (e : TypeExpr) : Prop := ∃ text, e = TypeExpr.parse text

/-- The type expressions of a member were read from text. -/
structure MemberDeclaration.IsRead (m : MemberDeclaration) : Prop where
  returnType : ∀ e, m.returnType? = some e → e.IsRead
  parameters : ∀ q ∈ m.parameters, q.type.IsRead

/-- The type arguments of an attribute were read from text. -/
def Attribute.IsRead (a : Attribute) : Prop := ∀ e ∈ a.typeArguments, e.IsRead

/-- The type expressions of a declaration were read from text. -/
structure Declaration.IsRead (d : Declaration) : Prop where
  attributes : ∀ a ∈ d.attributes, a.IsRead
  baseTypes : ∀ e ∈ d.baseTypes, e.IsRead
  members : ∀ m ∈ d.members, m.IsRead

/-- The type expressions of a model were read from text. -/
def Model.IsRead (m : Model) : Prop := ∀ d ∈ m.declarations, d.IsRead

namespace Model

/-- Numbering changes nothing but ids. -/
theorem mem_number : ∀ {ds : List Declaration} {next : Nat} {d : Declaration}, d ∈ number next ds →
    ∃ e ∈ ds, ∃ id, d = { e with id }
  | [], _, _, h => by cases h
  | e :: ds, next, d, h => by
    rcases List.mem_cons.mp h with rfl | h
    · exact ⟨e, List.mem_cons_self, next, rfl⟩
    · obtain ⟨e', he, hd⟩ := mem_number h
      exact ⟨e', List.mem_cons_of_mem _ he, hd⟩

theorem isRead_ofList {ds : List Declaration} (h : ∀ d ∈ ds, d.IsRead) : (ofList ds).IsRead := by
  intro d hd
  obtain ⟨e, he, id, rfl⟩ := mem_number hd
  exact ⟨(h e he).attributes, (h e he).baseTypes, (h e he).members⟩

end Model

/-! ## Documents -/

theorem TypeExpr.isRead_of_ofJson {j : Json} {e : TypeExpr} (h : ofJson j = .ok e) : e.IsRead := by
  obtain ⟨text, -, rfl⟩ := Json.map_eq_ok.mp h
  exact ⟨text, rfl⟩

theorem TypeExpr.isRead_of_listField {r : RecordReader} {name : String} {es : List TypeExpr}
    (h : r.withDefault name (Json.asList ofJson) [] = .value es) : ∀ e ∈ es, e.IsRead := fun e he => by
  obtain ⟨j, hj⟩ := Json.exists_of_mem_listField h e he
  exact isRead_of_ofJson hj

theorem Attribute.isRead_of_ofJson {j : Json} {a : Attribute} (h : ofJson j = .ok a) : a.IsRead := by
  obtain ⟨r, hr⟩ := Json.exists_of_asRecord h
  simp only [Column.seq_eq_value, Column.map_eq_value] at hr
  obtain ⟨_, args, ⟨name, -, rfl⟩, hargs, rfl⟩ := hr
  exact TypeExpr.isRead_of_listField hargs

theorem ParameterDeclaration.isRead_of_ofJson {j : Json} {q : ParameterDeclaration} (h : ofJson j = .ok q) :
    q.type.IsRead := by
  obtain ⟨r, hr⟩ := Json.exists_of_asRecord h
  simp only [Column.seq_eq_value, Column.map_eq_value] at hr
  obtain ⟨_, _, ⟨_, _, ⟨_, type, ⟨name, -, rfl⟩, htype, rfl⟩, -, rfl⟩, -, rfl⟩ := hr
  obtain ⟨j', hj⟩ := RecordReader.exists_of_required htype
  exact TypeExpr.isRead_of_ofJson hj

theorem MemberDeclaration.isRead_of_ofJson {j : Json} {m : MemberDeclaration} (h : ofJson j = .ok m) : m.IsRead := by
  obtain ⟨r, hr⟩ := Json.exists_of_asRecord h
  simp only [Column.seq_eq_value, Column.map_eq_value] at hr
  obtain ⟨_, parameters, ⟨_, returnType?, ⟨_, _, ⟨_, _, ⟨_, _, ⟨name, -, rfl⟩, -, rfl⟩, -, rfl⟩, -, rfl⟩, hreturn, rfl⟩,
    hparameters, rfl⟩ := hr
  refine ⟨fun e he => ?_, fun q hq => ?_⟩
  · obtain rfl : returnType? = some e := he
    obtain ⟨j', hj⟩ := RecordReader.exists_of_optionalDefault hreturn
    exact TypeExpr.isRead_of_ofJson hj
  · obtain ⟨j', hj⟩ := Json.exists_of_mem_listField hparameters q hq
    exact ParameterDeclaration.isRead_of_ofJson hj

theorem Declaration.isRead_of_ofJson {j : Json} {d : Declaration} (h : ofJson j = .ok d) : d.IsRead := by
  obtain ⟨r, hr⟩ := Json.exists_of_asRecord h
  simp only [Column.seq_eq_value, Column.map_eq_value] at hr
  obtain ⟨_, _, ⟨_, _, ⟨_, _, ⟨_, _, ⟨_, members, ⟨_, baseTypes, ⟨_, attributes, ⟨_, _, ⟨_, _, ⟨_, _, ⟨_, _, ⟨_, _,
    ⟨id, -, rfl⟩, -, rfl⟩, -, rfl⟩, -, rfl⟩, -, rfl⟩, -, rfl⟩, hattributes, rfl⟩, hbases, rfl⟩, hmembers, rfl⟩, -, rfl⟩,
    -, rfl⟩, -, rfl⟩, -, rfl⟩ := hr
  refine ⟨fun a ha => ?_, TypeExpr.isRead_of_listField hbases, fun m hm => ?_⟩
  · obtain ⟨j', hj⟩ := Json.exists_of_mem_listField hattributes a ha
    exact Attribute.isRead_of_ofJson hj
  · obtain ⟨j', hj⟩ := Json.exists_of_mem_listField hmembers m hm
    exact MemberDeclaration.isRead_of_ofJson hj

/-- **A model that was a document holds what was read.** -/
theorem Model.isRead_of_ofJson {j : Json} {m : Model} (h : ofJson j = .ok m) : m.IsRead := by
  obtain ⟨ds, hds, rfl⟩ := Json.map_eq_ok.mp h
  obtain ⟨r, hr⟩ := Json.exists_of_asRecord hds
  refine isRead_ofList fun d hd => ?_
  obtain ⟨j', hj⟩ := Json.exists_of_mem_listField hr d hd
  exact Declaration.isRead_of_ofJson hj

/-! ## Source files -/

theorem Attribute.isRead_ofText (text : String) : (Attribute.ofText text).IsRead := by
  rw [Attribute.ofText]
  split
  next name args suffix hparse =>
    intro e he
    rcases TypeExpr.isShaped_of_parse text with hshaped | ⟨-, hverbatim⟩
    · rw [hparse] at hshaped
      have hread := TypeExpr.parse_toText_of_isShaped (TypeExpr.allShaped_iff.mp hshaped.2.1 e he)
      exact ⟨e.toText, hread.symm⟩
    · cases hparse.symm.trans hverbatim
  next => intro e he; cases he

namespace SyntaxNode

variable {source : String} {n : SyntaxNode}

theorem isRead_writtenType (n : SyntaxNode) : (n.writtenType source).IsRead := ⟨_, rfl⟩

theorem isRead_plainMember {kind : MemberKind} {name : String} {type? : Option SyntaxNode} :
    (n.plainMember source kind name type?).IsRead where
  returnType e he := by
    obtain ⟨type, -, rfl⟩ := Option.map_eq_some_iff.mp he
    exact type.isRead_writtenType
  parameters _ h := absurd h List.not_mem_nil

theorem isRead_parameter? {q : ParameterDeclaration} (h : n.parameter? source = some q) : q.type.IsRead := by
  obtain ⟨name, -, rfl⟩ := Option.map_eq_some_iff.mp h
  exact ⟨_, rfl⟩

theorem isRead_parametersFrom : ∀ {nodes : List SyntaxNode} {takesAll : Bool} {type? : Option String},
    ∀ q ∈ parametersFrom source takesAll type? nodes, q.type.IsRead
  | [], _, _, _, h => absurd h List.not_mem_nil
  | n :: nodes, takesAll, type?, q, h => by
    rw [parametersFrom.eq_def] at h
    dsimp only at h
    split at h
    next =>
      rcases List.mem_append.mp h with h | h
      · exact isRead_parameter? (Option.mem_toList.mp h)
      · exact isRead_parametersFrom q h
    next =>
      split at h
      next => exact isRead_parametersFrom q h
      next =>
        split at h
        next => exact isRead_parametersFrom q h
        next =>
          split at h
          next => exact isRead_parametersFrom q h
          next type =>
            rcases List.mem_cons.mp h with rfl | h
            · exact ⟨type, rfl⟩
            · exact isRead_parametersFrom q h

theorem isRead_method? {m : MemberDeclaration} (h : n.method? source = some m) : m.IsRead := by
  rw [method?] at h
  split at h
  next => cases h
  next =>
    obtain ⟨name, -, rfl⟩ := Option.map_eq_some_iff.mp h
    refine ⟨fun e he => ?_, fun q hq => ?_⟩
    · cases he
      cases n.returnType? with
      | none => exact ⟨"", (by decide : TypeExpr.verbatim "" = .parse "")⟩
      | some type => exact type.isRead_writtenType
    · cases hlist : n.fieldOrKind? "parameters" "parameter_list" with
      | none => simp [hlist] at hq
      | some list =>
        simp only [hlist] at hq
        exact isRead_parametersFrom q hq

theorem isRead_variableMembers {kind : MemberKind} : ∀ m ∈ n.variableMembers source kind, m.IsRead := by
  intro m hm
  rw [variableMembers] at hm
  split at hm
  next => cases hm
  next =>
    obtain ⟨name, -, rfl⟩ := List.mem_map.mp hm
    exact isRead_plainMember

theorem isRead_members : ∀ m ∈ n.members source, m.IsRead := by
  intro m hm
  rw [members] at hm
  split at hm
  next => exact isRead_method? (Option.mem_toList.mp hm)
  next =>
    split at hm
    next =>
      cases List.mem_singleton.mp hm
      exact isRead_plainMember
    next => exact isRead_variableMembers m hm
    next => cases hm

/-- **What a node of a type declares was read from its text.** -/
theorem isRead_declaration {file? : Option String} {s : Surroundings} {kind : DeclarationKind} :
    (n.declaration source file? s kind).IsRead where
  attributes a ha := by
    obtain ⟨name, -, rfl⟩ := List.mem_map.mp ha
    exact Attribute.isRead_ofText _
  baseTypes e he := by
    change e ∈ n.baseTypes source at he
    rw [baseTypes] at he
    split at he
    next => cases he
    next =>
      obtain ⟨type, -, rfl⟩ := List.mem_map.mp he
      exact type.isRead_writtenType
  members m hm := by
    change m ∈ n.bodyMembers source at hm
    rw [bodyMembers] at hm
    split at hm
    next => cases hm
    next =>
      obtain ⟨c, -, hm⟩ := List.mem_flatMap.mp hm
      exact isRead_members m hm

end SyntaxNode

/-- More names in scope change no type expression. -/
theorem Declaration.IsRead.addUsings {d : Declaration} (h : d.IsRead) (namespaces : List String) :
    (d.addUsings namespaces).IsRead :=
  ⟨h.attributes, h.baseTypes, h.members⟩

theorem SourceFile.isRead_collected (file : SourceFile) : ∀ d ∈ file.collected.declarations, d.IsRead := by
  intro d hd
  rw [collected, collect_declarations] at hd
  obtain ⟨p, -, rfl⟩ := List.mem_map.mp hd
  exact SyntaxNode.isRead_declaration.addUsings _

theorem isRead_foldl_append : ∀ {files : List Collected} {found : Collected},
    (∀ f ∈ files, ∀ d ∈ f.declarations, d.IsRead) → (∀ d ∈ found.declarations, d.IsRead) →
      ∀ d ∈ (files.foldl Collected.append found).declarations, d.IsRead
  | [], _, _, hfound => hfound
  | f :: files, found, hfiles, hfound => by
    obtain ⟨hf, hfiles⟩ := List.forall_mem_cons.mp hfiles
    rw [List.foldl_cons]
    exact isRead_foldl_append hfiles (List.forall_mem_append.mpr ⟨hfound, hf⟩)

/-- **A model that comes from source files holds what was read.** -/
theorem Model.isRead_ofFiles (files : List SourceFile) : (Model.ofFiles files).IsRead := by
  refine isRead_ofList fun d hd => ?_
  obtain ⟨e, he, rfl⟩ := List.mem_map.mp hd
  refine Declaration.IsRead.addUsings (isRead_foldl_append (fun f hf => ?_) (by simp [Collected.empty]) e he) _
  obtain ⟨file, -, rfl⟩ := List.mem_map.mp hf
  exact file.isRead_collected

end ContractStubs
