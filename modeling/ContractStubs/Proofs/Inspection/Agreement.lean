import ContractStubs.Inspection.Basic
import ContractStubs.Proofs.Pass.Files
import ContractStubs.Proofs.Samples
import ContractStubs.Proofs.Stub.Headers

/-!
# Inspections and passes

A project is inspected and generated from the same requests, and an inspection asks each target for its contract, as a
pass does. But a pass then composes the targets into a list of base types, and an inspection does not. So the
inspections have no diagnostics exactly for the files with nothing left out, apart from those of which some target
cannot stand in such a list (`TypeInspection.Tells`, `Generator.inspect_tells`): of these an inspection lists members
that the file does not have (`Generator.inspect_misses_refusal`).
-/

namespace ContractStubs

/-! ## Contracts without diagnostics -/

/-- Nothing is wrong with a contract that has a signature for each member. -/
theorem Contract.diagnostics_eq_nil_iff {c : Contract} : c.diagnostics = [] ↔ c.members = c.signatures.map .ok := by
  rw [diagnostics, signatures]
  induction c.members with
  | nil => simp
  | cons m ms ih =>
    cases m with
    | ok s => simpa using ih
    | error d =>
      refine iff_of_false (by simp) fun h => ?_
      have hmem := h ▸ List.mem_cons_self
      obtain ⟨s, -, hs⟩ := List.mem_map.mp hmem
      cases hs

namespace Provider

variable {p : Provider} {allow : Bool} {r : StubRequest}

/-- The interface has a contract in which nothing is wrong. -/
def HasContract (p : Provider) (allow : Bool) (interface : TypeRef) : Prop :=
  ∃ c, p.contractOf allow interface = .ok c ∧ c.diagnostics = []

/-- The signatures in the contracts of the targets of a request. -/
def signaturesOf (p : Provider) (allow : Bool) (r : StubRequest) : List Signature :=
  (p.contractsOf allow r).flatMap (·.signatures)

theorem diagnostics_of_mem_contractsOf {c : Contract} (h : ∀ i ∈ r.interfaces, p.HasContract allow i)
    (hc : c ∈ p.contractsOf allow r) : c.diagnostics = [] := by
  obtain ⟨i, hi, hc⟩ := mem_contractsOf.mp hc
  obtain ⟨c', hc', hnone⟩ := h i hi
  obtain rfl := Except.ok.inj (hc.symm.trans hc')
  exact hnone

/-- Where nothing is wrong, a text is written with the signatures alone. -/
theorem membersOf_eq (h : ∀ i ∈ r.interfaces, p.HasContract allow i) :
    p.membersOf allow r = (p.signaturesOf allow r).map .ok := by
  have hmembers : (p.contractsOf allow r).flatMap (·.members) = (p.signaturesOf allow r).map .ok := by
    rw [signaturesOf, List.map_flatMap]
    refine List.flatMap_congr fun c hc => ?_
    exact Contract.diagnostics_eq_nil_iff.mp (diagnostics_of_mem_contractsOf h hc)
  rw [membersOf, hmembers, List.map_map]
  rfl

end Provider

/-! ## Files with nothing left out -/

section Files

variable {p : Provider} {allow : Bool} {r : StubRequest} {t : TypeRef} {outputExtension : String}

theorem StubFile.isSuccess_iff {f : StubFile} : f.isSuccess = true ↔ f.diagnostics = [] := List.isEmpty_iff

/-- A text with no diagnostics holds a stub for each member. -/
theorem StubFile.isDegenerate_of_isSuccess {f : StubFile} (h : f.isSuccess = true) : f.isDegenerate = false := by
  rw [isDegenerate, isSuccess_iff.mp h]
  rfl

theorem implementsClause_of_isBase {interfaces : List TypeRef} (h : ∀ i ∈ interfaces, i.isBase = true) :
    ∃ clause, implementsClause interfaces = .ok clause := by
  have hnone : interfaces.find? (fun i => !i.isBase) = none := by simpa using h
  rw [implementsClause, hnone]
  exact ⟨_, rfl⟩

namespace StubSource

theorem diagnostics_ofContracts_eq_nil_iff {clause : String} {cs : List Contract} :
    (ofContracts r clause cs).diagnostics = [] ↔ ∀ c ∈ cs, c.diagnostics = [] := by
  simp only [ofContracts, Contract.diagnostics, List.filterMap_eq_nil_iff, List.mem_map, List.mem_flatMap]
  constructor
  · intro h c hc m hm
    have hframed := h (r.framed m) ⟨m, ⟨c, hc, hm⟩, rfl⟩
    cases m with
    | ok s => rfl
    | error d => cases hframed
  · rintro h _ ⟨m, ⟨c, hc, hm⟩, rfl⟩
    have hplain := h c hc m hm
    cases m with
    | ok s => rfl
    | error d => cases hplain

end StubSource

namespace Provider

/-- With a contract for each target, a text is made from these if the targets can stand in a list of base types. -/
theorem stubSource_of_hasContract (h : ∀ i ∈ r.interfaces, p.HasContract allow i) : p.stubSource allow r =
    match implementsClause r.interfaces with
    | .error cause => .ofFailures [(Diagnostic.ofType cause).withFrame (synthesizeFrame r)]
    | .ok clause => .ofContracts r clause (p.contractsOf allow r) := by
  refine StubSource.ofRequest_of_contracts ?_
  rw [StubSource.failures, List.filterMap_eq_nil_iff]
  intro outcome houtcome
  obtain ⟨i, hi, rfl⟩ := List.mem_map.mp houtcome
  obtain ⟨c, hc, -⟩ := h i hi
  rw [hc]

/-- **Nothing is left out of a file where each target has a contract in which nothing is wrong, and all of them can
stand in a list of base types.** -/
theorem isSuccess_iff : (p.stubFile allow outputExtension r).isSuccess = true ↔
    (∀ i ∈ r.interfaces, p.HasContract allow i) ∧ ∀ i ∈ r.interfaces, i.isBase = true := by
  constructor
  · intro h
    obtain ⟨hcontracts, hbase, clause, -, hsource⟩ :=
      stubSource_of_not_isDegenerate (StubFile.isDegenerate_of_isSuccess h)
    have hnil : (p.stubSource allow r).diagnostics = [] := StubFile.isSuccess_iff.mp h
    rw [hsource, StubSource.diagnostics_ofContracts_eq_nil_iff] at hnil
    refine ⟨fun i hi => ?_, hbase⟩
    obtain ⟨c, hc⟩ := hcontracts i hi
    exact ⟨c, hc, hnil c (mem_contractsOf.mpr ⟨i, hi, hc⟩)⟩
  · rintro ⟨hcontracts, hbase⟩
    obtain ⟨clause, hclause⟩ := implementsClause_of_isBase hbase
    have hsource := stubSource_of_hasContract hcontracts
    rw [hclause] at hsource
    rw [StubFile.isSuccess_iff, stubFile, hsource, StubSource.diagnostics_ofContracts_eq_nil_iff]
    exact fun c hc => diagnostics_of_mem_contractsOf hcontracts hc

/-- The refusal of the first target that cannot stand in a list of base types is all that such a file tells. -/
theorem diagnostics_of_not_isBase (h : ∀ i ∈ r.interfaces, p.HasContract allow i)
    (ht : r.interfaces.find? (fun i => !i.isBase) = some t) : (p.stubFile allow outputExtension r).diagnostics =
      [(Diagnostic.ofType (.invalidImplements (t.toText ++ " cannot be used as a base interface"))).withFrame
        (synthesizeFrame r)] := by
  rw [stubFile, stubSource_of_hasContract h, implementsClause, ht]
  rfl

end Provider

end Files

/-! ## Inspections of requests -/

namespace TypeInspection

/-- The members of all interfaces, one after the other. -/
def members (i : TypeInspection) : List String := i.interfaces.flatMap (·.members)

/-- What is wrong with any of the interfaces. -/
def diagnostics (i : TypeInspection) : List String := i.interfaces.flatMap (·.diagnostics)

/-- What the inspection of the type of a request tells of the file for the request. -/
structure Tells (r : StubRequest) (i : TypeInspection) (f : StubFile) : Prop where
  typeName : i.typeName = f.typeName
  identifier : i.identifier = f.identifier
  targets : i.interfaces.map (·.interface) = r.interfaces.map TypeRef.toText
  /-- Nothing is left out where nothing is wrong, unless a target cannot stand in a list of base types. -/
  isSuccess_iff : f.isSuccess = true ↔ i.diagnostics = [] ∧ ∀ t ∈ r.interfaces, t.isBase = true
  /-- The methods of a file with nothing left out are the members, each behind `async` or not. -/
  written : f.isSuccess = true → ∃ (ss : List Signature) (clause : String) (namespaces : NamespaceSet),
    i.members = ss.map Signature.header ∧
      f.text = ((Page.closeAll ⟨(r.openType clause).lines ++ Page.membersLines (r.openType clause).depth (ss.map .ok),
        (r.openType clause).depth⟩).prepend (headLines namespaces)).toText
  /-- A target that is refused is the only thing that its file tells. -/
  refused : i.diagnostics = [] → ∀ t, r.interfaces.find? (fun t => !t.isBase) = some t → f.diagnostics =
    [(Diagnostic.ofType (.invalidImplements (t.toText ++ " cannot be used as a base interface"))).withFrame
      (synthesizeFrame r)]

end TypeInspection

namespace Provider

variable {p : Provider} {allow : Bool} {r : StubRequest} {interface : TypeRef} {outputExtension : String}

/-- The inspection of the type of a request. -/
def inspectionOf (p : Provider) (allow : Bool) (outputExtension : String) (r : StubRequest) : TypeInspection :=
  ⟨r.qualifiedName, r.target.fileName outputExtension,
    r.interfaces.map fun interface => .ofContract interface (p.contractOf allow interface)⟩

theorem diagnostics_ofContract_eq_nil_iff :
    (InterfaceInspection.ofContract interface (p.contractOf allow interface)).diagnostics = [] ↔
      p.HasContract allow interface := by
  rw [HasContract]
  cases p.contractOf allow interface with
  | error d => simp [InterfaceInspection.ofContract]
  | ok c => simp [InterfaceInspection.ofContract]

theorem diagnostics_inspectionOf_eq_nil_iff :
    (p.inspectionOf allow outputExtension r).diagnostics = [] ↔ ∀ i ∈ r.interfaces, p.HasContract allow i := by
  simp only [TypeInspection.diagnostics, inspectionOf, List.flatMap_map, List.flatMap_eq_nil_iff,
    diagnostics_ofContract_eq_nil_iff]

/-- An inspection lists the headers of the signatures, whatever else is wrong. -/
theorem members_inspectionOf :
    (p.inspectionOf allow outputExtension r).members = (p.signaturesOf allow r).map Signature.header := by
  rw [TypeInspection.members, inspectionOf, signaturesOf, contractsOf]
  induction r.interfaces with
  | nil => rfl
  | cons i is ih =>
    rw [List.map_cons, List.map_cons, List.flatMap_cons, ih, List.filterMap_cons]
    cases p.contractOf allow i with
    | error d => rfl
    | ok c => exact List.map_append.symm

theorem tells_inspectionOf (p : Provider) (allow : Bool) (outputExtension : String) (r : StubRequest) :
    (p.inspectionOf allow outputExtension r).Tells r (p.stubFile allow outputExtension r) where
  typeName := rfl
  identifier := rfl
  targets := by
    rw [inspectionOf, List.map_map]
    refine List.map_congr_left fun i _ => ?_
    rw [Function.comp]
    cases p.contractOf allow i <;> rfl
  isSuccess_iff := by rw [isSuccess_iff, diagnostics_inspectionOf_eq_nil_iff]
  written h := by
    obtain ⟨clause, -, htext⟩ := text_of_not_isDegenerate (StubFile.isDegenerate_of_isSuccess h)
    rw [membersOf_eq (isSuccess_iff.mp h).1] at htext
    exact ⟨p.signaturesOf allow r, clause, _, members_inspectionOf, htext⟩
  refused h t ht := diagnostics_of_not_isBase (diagnostics_inspectionOf_eq_nil_iff.mp h) ht

end Provider

/-! ## Inspections of projects -/

namespace Generator

variable {g : Generator} {provider : Provider} {order : Nat → List Nat} {disk : Disk}

theorem inspect_eq (g : Generator) (provider : Provider) : inspect provider g.config =
    (g.requestsOf provider).map (provider.inspectionOf g.config.allowSynchronousMembers g.config.outputExtension) := rfl

/-- **The inspections of a project tell of the files that a pass makes**, one of each, whatever the project is. -/
theorem inspect_tells (hcache : g.cache? = none) (horder : IsOrder order) :
    (inspect provider g.config).map (fun i => (i.typeName, i.identifier)) =
        (g.generate provider .never order disk).1.files.map (fun f => (f.typeName, f.identifier)) ∧
      List.Forall₂ (fun i f => ∃ r ∈ g.requestsOf provider, i.Tells r f) (inspect provider g.config)
        (g.generate provider .never order disk).1.files := by
  rw [files_of_no_cache hcache horder, inspect_eq]
  refine ⟨by rw [List.map_map, List.map_map]; rfl, ?_⟩
  rw [List.forall₂_map_left_iff, List.forall₂_map_right_iff, List.forall₂_same]
  exact fun r hr => ⟨r, hr, provider.tells_inspectionOf _ _ r⟩

/-- The inspection of a worker for two targets, of which one has a base. -/
theorem greetings_inspected :
    let g : Generator := ⟨.standard, none⟩
    let provider := Program.greetings.provider 3
    let files := (g.generate provider .never inOrder ⟨[], []⟩).1.files
    g.cache? = none ∧ IsOrder inOrder ∧
      inspect provider g.config =
        [⟨"Worker", "Worker.g.cs", [⟨"IGreeter", ["Task IGreeter.Say()", "Task IFarewell.Leave()"], []⟩,
          ⟨"IWaiter", ["Task IWaiter.Say()"], []⟩]⟩] ∧
      files.map (fun f => (f.typeName, f.identifier, f.isSuccess)) = [("Worker", "Worker.g.cs", true)] ∧
      List.Forall₂ (fun i f => ∃ r ∈ g.requestsOf provider, i.Tells r f) (inspect provider g.config) files := by
  intro g provider files
  refine ⟨rfl, isOrder_inOrder, by decide +kernel, ?_, (inspect_tells rfl isOrder_inOrder).2⟩
  rw [show files = (g.requestsOf provider).map (g.fileOf provider) from files_of_no_cache rfl isOrder_inOrder]
  decide +kernel

/-- A worker for an array of greeters. -/
def arrayWanted : Program := .ofModel (.ofList [Program.speaking none "IGreeter" "Say" [],
  { Program.workerFor [] with attributes := [⟨"AddImplementation", [.named "IGreeter" [] "[]"]⟩] }]) []

/-- An array is inspected like the interface in it, and then no stub is made. -/
theorem inspect_misses_refusal :
    let g : Generator := ⟨.standard, none⟩
    let provider := arrayWanted.provider 3
    g.config.validate = .ok () ∧
      inspect provider g.config =
        [⟨"Worker", "Worker.g.cs", [⟨"IGreeter[]", ["Task IGreeter[].Say()"], []⟩]⟩] ∧
      ((g.generate provider .never inOrder ⟨[], []⟩).1.files.map fun f => (f.isSuccess, f.diagnostics.map (·.toText))) =
        [(false, ["Cannot compose implements clause: IGreeter[] cannot be used as a base interface"])] := by
  intro g provider
  refine ⟨by decide +kernel, by decide +kernel, ?_⟩
  rw [files_of_no_cache rfl isOrder_inOrder]
  decide +kernel

end Generator

end ContractStubs
