import ContractStubs.Proofs.Request.Parts
import ContractStubs.Proofs.Samples
import ContractStubs.Proofs.Stub.Headers

/-!
# The layout of a text

A text that is not degenerate has, line by line, its using lines, the namespace and the enclosing types, the header of
the type, the members and the closing braces (`Provider.lines_of_not_isDegenerate`). The header of the type ends with the
interfaces that the marker names on the parts of the type, in their order and each as often as it is named
(`Program.clause_follows_markers`).
-/

namespace ContractStubs

namespace Page

/-- The lines of headers, each with an opening brace and inside of the one before, from so many blocks on. -/
def openLines : (depth : Nat) → List String → List String
  | _, [] => []
  | depth, header :: headers => indented depth header :: indented depth "\x7b" :: openLines (depth + 1) headers

/-- The lines that close so many blocks. -/
def closeLines : (count : Nat) → List String
  | 0 => []
  | count + 1 => indented count "\x7d" :: closeLines count

theorem indented_zero (text : String) : indented 0 text = text := by
  rw [indented]
  split
  next h => exact h.symm
  next => simp

theorem openBlock_eq (p : Page) (header : String) :
    p.openBlock header = ⟨p.lines ++ openLines p.depth [header], p.depth + 1⟩ := by
  simp [openBlock, write, openLines]

theorem openLines_append : ∀ (headers others : List String) (depth : Nat),
    openLines depth (headers ++ others) = openLines depth headers ++ openLines (depth + headers.length) others
  | [], _, _ => by simp [openLines]
  | header :: headers, others, depth => by
    have hdepth : depth + 1 + headers.length = depth + (header :: headers).length := by
      rw [List.length_cons]
      omega
    rw [List.cons_append, openLines, openLines_append headers others (depth + 1), hdepth]
    rfl

/-- Blocks are opened one inside of the other. -/
theorem foldl_openBlock : ∀ (headers : List String) (p : Page),
    headers.foldl openBlock p = ⟨p.lines ++ openLines p.depth headers, p.depth + headers.length⟩
  | [], p => by simp [openLines]
  | header :: headers, p => by
    have hdepth : p.depth + 1 + headers.length = p.depth + (header :: headers).length := by
      rw [List.length_cons]
      omega
    rw [List.foldl_cons, foldl_openBlock headers, openBlock_eq]
    dsimp only
    rw [hdepth, List.append_assoc]
    rfl

theorem closeBlocks_eq : ∀ (count : Nat) (p : Page), p.depth = count →
    closeBlocks count p = ⟨p.lines ++ closeLines count, 0⟩
  | 0, p, h => by
    rw [closeBlocks, closeLines, List.append_nil, ← h]
  | count + 1, p, h => by
    have hclose : p.closeBlock = ⟨p.lines ++ [indented count "\x7d"], count⟩ := by
      rw [closeBlock, write, h]
      rfl
    rw [closeBlocks, hclose, closeBlocks_eq count _ rfl, List.append_assoc]
    rfl

theorem closeAll_eq (p : Page) : p.closeAll = ⟨p.lines ++ closeLines p.depth, 0⟩ := closeBlocks_eq p.depth p rfl

end Page

/-! ## Lines -/

theorem implementsClause_eq_ok {interfaces : List TypeRef} {clause : String}
    (h : implementsClause interfaces = .ok clause) :
    clause = if interfaces.isEmpty then "" else " : " ++ commaSeparated (interfaces.map TypeRef.toText) := by
  rw [implementsClause] at h
  split at h
  next => cases h
  next => exact (Except.ok.inj h).symm

namespace StubRequest

/-- The headers of the enclosing types, outermost first. -/
def outerHeaders (r : StubRequest) : List String :=
  r.target.containers.map fun c => partialHeader c.kind c.displayName

/-- The header of the type. -/
def typeHeader (r : StubRequest) (clause : String) : String :=
  partialHeader r.target.kind r.target.displayName ++ clause

/-- The lines that name the namespace. -/
def namespaceLines (r : StubRequest) : List String :=
  r.target.namespaceName?.elim [] fun ns => ["namespace " ++ ns ++ ";", ""]

/-- The type is opened behind its namespace and inside of the enclosing types. -/
theorem openType_eq (r : StubRequest) (clause : String) : r.openType clause =
    ⟨r.namespaceLines ++ Page.openLines 0 (r.outerHeaders ++ [r.typeHeader clause]), r.outerHeaders.length + 1⟩ := by
  have hfold : ∀ p : Page, r.target.containers.foldl (fun p c => p.openBlock (partialHeader c.kind c.displayName)) p =
      r.outerHeaders.foldl Page.openBlock p := by
    intro p
    rw [outerHeaders, List.foldl_map]
  have hnamespace : (r.target.namespaceName?.elim Page.empty fun ns =>
      (Page.empty.write ("namespace " ++ ns ++ ";")).writeBlank) = ⟨r.namespaceLines, 0⟩ := by
    rw [namespaceLines]
    cases r.target.namespaceName? with
    | none => rfl
    | some ns => simp [Page.write, Page.writeBlank, Page.empty, Page.indented_zero]
  rw [openType, hnamespace, hfold, Page.foldl_openBlock, Page.openBlock_eq, Page.openLines_append, List.append_assoc]
  simp only [typeHeader, Nat.zero_add]

end StubRequest

/-- The lines behind the using lines of a text with the stubs for some contracts. -/
def StubRequest.bodyLines (r : StubRequest) (clause : String) (contracts : List Contract) : List String :=
  r.namespaceLines ++ Page.openLines 0 (r.outerHeaders ++ [r.typeHeader clause]) ++
    Page.membersLines (r.outerHeaders.length + 1) ((contracts.flatMap (·.members)).map r.framed) ++
    Page.closeLines (r.outerHeaders.length + 1)

/-- A text with the stubs for some contracts, line by line. -/
theorem StubSource.text_ofContracts (r : StubRequest) (clause : String) (contracts : List Contract) :
    (ofContracts r clause contracts).text =
      "\n".intercalate (headLines (usedNamespaces contracts) ++ r.bodyLines clause contracts) ++ "\n" := by
  rw [ofContracts]
  dsimp only
  rw [Page.writeMembers_eq, StubRequest.openType_eq, Page.closeAll_eq, Page.prepend, Page.toText,
    StubRequest.bodyLines]

namespace Provider

variable {p : Provider} {allow : Bool} {outputExtension : String} {r : StubRequest}

/-- **A text that is not degenerate, line by line.** -/
theorem lines_of_not_isDegenerate (h : (p.stubFile allow outputExtension r).isDegenerate = false) :
    ∃ clause, implementsClause r.interfaces = .ok clause ∧
      (p.stubFile allow outputExtension r).text =
        "\n".intercalate (headLines (usedNamespaces (p.contractsOf allow r)) ++ r.namespaceLines ++
          Page.openLines 0 (r.outerHeaders ++ [r.typeHeader clause]) ++
          Page.membersLines (r.outerHeaders.length + 1) (p.membersOf allow r) ++
          Page.closeLines (r.outerHeaders.length + 1)) ++ "\n" := by
  obtain ⟨-, -, clause, hclause, hsource⟩ := stubSource_of_not_isDegenerate h
  refine ⟨clause, hclause, ?_⟩
  rw [stubFile, hsource, StubSource.text_ofContracts, StubRequest.bodyLines, membersOf]
  simp only [List.append_assoc]

end Provider

/-! ## The interfaces in the header -/

namespace Program

variable {p : Program} {marker : Marker} {depth : Nat} {r : StubRequest}

/-- The interfaces that the uses of the marker on a declaration name, in the scope of the declaration. -/
def namedOn (p : Program) (marker : Marker) (d : Declaration) : List TypeRef :=
  (d.attributes.filter fun a => marker.isMatch a.name).flatMap fun a =>
    a.typeArguments.map (p.binder.bind (.ofDeclaration d))

/-- The interfaces that the uses of the marker name on all parts of a type. -/
def namedOnParts (p : Program) (marker : Marker) (name : String) : List TypeRef :=
  (p.partsOf marker name).flatMap (p.namedOn marker)

theorem filterMap_attributeUses (b : Binder) (scope : Scope) (marker : Marker) (a : Attribute) :
    (attributeUses b scope marker a).filterMap MarkerUse.target? =
      if marker.isMatch a.name then a.typeArguments.map (b.bind scope) else [] := by
  rw [attributeUses]
  cases marker.isMatch a.name with
  | false => rfl
  | true =>
    cases a.typeArguments with
    | nil => rfl
    | cons t ts => simp [MarkerUse.target?, Function.comp_def]

theorem filterMap_usesOn (d : Declaration) : (p.usesOn marker d).filterMap MarkerUse.target? = p.namedOn marker d := by
  have hall : ∀ as : List Attribute,
      (as.flatMap fun a => (attributeUses p.binder (.ofDeclaration d) marker a).filterMap MarkerUse.target?) =
        (as.filter fun a => marker.isMatch a.name).flatMap fun a =>
          a.typeArguments.map (p.binder.bind (.ofDeclaration d)) := by
    intro as
    induction as with
    | nil => rw [List.flatMap_nil, List.filter_nil, List.flatMap_nil]
    | cons a as ih =>
      rw [List.flatMap_cons, ih, filterMap_attributeUses, List.filter_cons]
      cases marker.isMatch a.name with
      | false => simp
      | true => simp
  rw [usesOn, List.filterMap_flatMap, hall, namedOn]

/-- The interfaces of a request are those that are named on its parts. -/
theorem interfaces_of_mem_requests (h : r ∈ p.requests marker) :
    r.interfaces = p.namedOnParts marker r.qualifiedName := by
  rw [StubRequest.interfaces, (parts_of_mem_requests h).2.1, namedOnParts, List.filterMap_flatMap]
  exact List.flatMap_congr fun d _ => filterMap_usesOn d

/-- The list of base types that the uses of the marker on the parts of a type come to. -/
def clauseOnParts (p : Program) (marker : Marker) (name : String) : String :=
  if (p.namedOnParts marker name).isEmpty then ""
  else " : " ++ commaSeparated ((p.namedOnParts marker name).map TypeRef.toText)

/-- **The header of a type follows the marker.** A request is made of the candidates whose type can be told and has its
name, in their order; its interfaces are those that are named there, looked up in the scope of the declaration that
names them; and in a text that is not degenerate the header of the type ends with just these. -/
theorem clause_follows_markers {allow : Bool} {outputExtension : String} (hm : p.model.IsNumbered)
    (hr : r ∈ (p.provider depth).requests marker ((p.provider depth).candidates marker))
    (h : ((p.provider depth).stubFile allow outputExtension r).isDegenerate = false) :
    r.target.declarations = ((p.model.declarations.filter (isCandidate marker)).filter fun d =>
        (targetOf? d).any fun target => target.qualifiedName == r.qualifiedName).map (·.id) ∧
      r.interfaces = p.namedOnParts marker r.qualifiedName ∧
      ((p.provider depth).stubFile allow outputExtension r).text =
        "\n".intercalate (headLines (usedNamespaces ((p.provider depth).contractsOf allow r)) ++ r.namespaceLines ++
          Page.openLines 0 (r.outerHeaders ++ [partialHeader r.target.kind r.target.displayName ++
            p.clauseOnParts marker r.qualifiedName]) ++
          Page.membersLines (r.outerHeaders.length + 1) ((p.provider depth).membersOf allow r) ++
          Page.closeLines (r.outerHeaders.length + 1)) ++ "\n" := by
  rw [requests_eq hm] at hr
  have hinterfaces := interfaces_of_mem_requests hr
  obtain ⟨clause, hclause, htext⟩ := Provider.lines_of_not_isDegenerate h
  have hdeclarations := (parts_of_mem_requests hr).1
  rw [partsOf_eq_candidates] at hdeclarations
  refine ⟨hdeclarations, hinterfaces, ?_⟩
  have hsame : clause = p.clauseOnParts marker r.qualifiedName := by
    rw [implementsClause_eq_ok hclause, clauseOnParts, hinterfaces]
  rw [htext, StubRequest.typeHeader, hsame]

/-- A part of a keeper with some attributes. -/
def keeper (usings : List String) (attributes : List Attribute) : Declaration :=
  { interfaceNamed (some "Shop") "Keeper" with kind := .classType, usings := usings, attributes := attributes }

/-- Stores in two namespaces, and a keeper in three parts, of which one could not be understood. -/
def keepers : Program := .ofModel (.ofList [interfaceNamed (some "Data") "IStore", interfaceNamed (some "Web") "IStore",
  interfaceNamed none "IAudit",
  keeper ["Data"] [⟨"AddImplementation", [.named "IStore" [] ""]⟩, ⟨"Obsolete", [.named "IAudit" [] ""]⟩,
    ⟨"AddImplementation", []⟩],
  { keeper [] [⟨"AddImplementation", [.named "IAudit" [] ""]⟩] with malformed := true },
  keeper ["Web"] [⟨"AddImplementation", [.named "IStore" [] "", .named "IAudit" [] ""]⟩,
    ⟨"AddImplementation", [.named "IStore" [] ""]⟩]]) []

/-- Each part names stores in its own scope, and a store that is named twice stays so. -/
theorem keeper_follows_markers :
    let marker : Marker := ⟨"AddImplementation"⟩
    let provider := keepers.provider 2
    let rs := provider.requests marker (provider.candidates marker)
    keepers.model.IsNumbered ∧ ∃ r ∈ rs, (provider.stubFile false ".g.cs" r).isDegenerate = false ∧
      r.target.declarations = [3, 5] ∧
      r.interfaces = [.named (some "Data") "IStore" [], .named (some "Web") "IStore" [], .named none "IAudit" [],
        .named (some "Web") "IStore" []] ∧
      ∃ before after, (provider.stubFile false ".g.cs" r).text = "\n".intercalate (before ++
        ["partial class Keeper : IStore, IStore, IAudit, IStore", "\x7b"] ++ after) ++ "\n" := by
  intro marker provider rs
  have hr : rs.headD default ∈ rs := by decide +kernel
  have hwhole : (provider.stubFile false ".g.cs" (rs.headD default)).isDegenerate = false := by decide +kernel
  obtain ⟨hdeclarations, hinterfaces, htext⟩ := clause_follows_markers (Model.isNumbered_ofList _) hr hwhole
  have hopen : Page.openLines 0 ((rs.headD default).outerHeaders ++ [partialHeader (rs.headD default).target.kind
      (rs.headD default).target.displayName ++ keepers.clauseOnParts marker (rs.headD default).qualifiedName]) =
        ["partial class Keeper : IStore, IStore, IAudit, IStore", "\x7b"] := by decide +kernel
  refine ⟨Model.isNumbered_ofList _, _, hr, hwhole, ?_, ?_, ?_⟩
  · rw [hdeclarations]
    decide +kernel
  · rw [hinterfaces]
    decide +kernel
  · rw [htext, hopen, List.append_assoc _ _ (Page.closeLines _)]
    exact ⟨_, _, rfl⟩

end Program

end ContractStubs
