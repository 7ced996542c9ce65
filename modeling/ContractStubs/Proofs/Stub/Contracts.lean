import ContractStubs.Proofs.Namespace.Set
import ContractStubs.Stub.Source

/-!
# Texts and their contracts

A text is degenerate exactly where a target has no contract or cannot stand in a list of base types; any other is
written from the contracts of all its targets (`Provider.stubSource_of_not_isDegenerate`), and its using lines name the
namespaces of every type in them (`mem_usedNamespaces`). A degenerate one is written from failures alone
(`Provider.stubSource_of_isDegenerate`).
-/

namespace ContractStubs

variable {p : Provider} {allow : Bool} {r : StubRequest} {interface : TypeRef} {c : Contract}

/-! ## Signatures -/

/-- A signature is made of the name and the types of its member. -/
theorem InterfaceMember.signature_eq_ofTypes {m : InterfaceMember} {s : Signature} (h : m.signature allow = .ok s) :
    ∃ returnType result, m.returnType? = some returnType ∧
      s = .ofTypes m.name m.typeParameters m.parameters returnType result m.declaringInterface := by
  rw [signature] at h
  split at h
  next => cases h
  next returnType hreturn =>
    split at h
    next => cases h
    next =>
      cases hresult : ResultShape.ofReturnType m.name returnType allow with
      | error cause => rw [hresult] at h; cases h
      | ok result =>
        rw [hresult] at h
        cases h
        exact ⟨returnType, result, (Option.filter_eq_some_iff.mp hreturn).1, rfl⟩

/-- A signature has the types of its member. -/
theorem InterfaceMember.signature_eq_ok {m : InterfaceMember} {s : Signature} (h : m.signature allow = .ok s) :
    s.declaringInterface = m.declaringInterface ∧ m.returnType? = some s.returnType ∧ s.parameters = m.parameters ∧
      s.typeParameters = m.typeParameters ∧
      s.namespaces = .ofList (s.returnType.namespaces ++ s.parameters.flatMap fun q => q.type.namespaces) := by
  obtain ⟨returnType, result, hreturn, rfl⟩ := signature_eq_ofTypes h
  exact ⟨rfl, hreturn, rfl, rfl, rfl⟩

/-! ## Degenerate texts -/

theorem isBase_of_implementsClause {interfaces : List TypeRef} {clause : String}
    (h : implementsClause interfaces = .ok clause) : ∀ i ∈ interfaces, i.isBase = true := by
  rw [implementsClause] at h
  split at h
  next => cases h
  next hnone => simpa using hnone

namespace StubSource

/-- The targets that have no contract, as diagnostics of the text. -/
def failures (r : StubRequest) (outcomes : List (Except Diagnostic Contract)) : List Diagnostic :=
  outcomes.filterMap fun | .ok _ => none | .error d => some (d.withFrame (synthesizeFrame r))

variable {outcomes : List (Except Diagnostic Contract)}

theorem ofRequest_of_failures (h : failures r outcomes ≠ []) :
    ofRequest r outcomes = ofFailures (failures r outcomes) := by
  have hempty : (!(failures r outcomes).isEmpty) = true := by simpa using h
  exact if_pos hempty

theorem ofRequest_of_contracts (h : failures r outcomes = []) : ofRequest r outcomes =
    match implementsClause r.interfaces with
    | .error cause => ofFailures [(Diagnostic.ofType cause).withFrame (synthesizeFrame r)]
    | .ok clause => ofContracts r clause (outcomes.filterMap Except.toOption) := by
  have hempty : ¬(!(failures r outcomes).isEmpty) = true := by simpa using h
  exact if_neg hempty

theorem diagnostics_ofContracts (clause : String) (contracts : List Contract) :
    (ofContracts r clause contracts).diagnostics =
      (contracts.flatMap (·.diagnostics)).map fun d => d.withFrame (synthesizeFrame r) := by
  simp only [ofContracts, Contract.diagnostics, List.filterMap_map, ← List.filterMap_flatMap, List.map_filterMap]
  congr 1
  funext m
  cases m <;> rfl

end StubSource

namespace Provider

/-- The contracts of a request's targets. -/
def contractsOf (p : Provider) (allow : Bool) (r : StubRequest) : List Contract :=
  (r.interfaces.map (p.contractOf allow)).filterMap Except.toOption

theorem contractOf_eq_ok : p.contractOf allow interface = .ok c ↔ ∃ ms, p.members interface = .ok ms ∧
    c = ⟨interface, (ms.filter InterfaceMember.isInstanceMethod).map fun m =>
      m.outcome allow (introspectFrame interface)⟩ := by
  rw [contractOf]
  cases p.members interface with
  | error cause => simp
  | ok ms => simp [eq_comm]

theorem mem_contractsOf : c ∈ p.contractsOf allow r ↔ ∃ i ∈ r.interfaces, p.contractOf allow i = .ok c := by
  rw [contractsOf, List.mem_filterMap]
  constructor
  · rintro ⟨outcome, houtcome, hok⟩
    obtain ⟨i, hi, rfl⟩ := List.mem_map.mp houtcome
    cases hc : p.contractOf allow i with
    | error d => rw [hc] at hok; cases hok
    | ok c' => rw [hc] at hok; cases hok; exact ⟨i, hi, hc⟩
  · rintro ⟨i, hi, hc⟩
    exact ⟨.ok c, List.mem_map.mpr ⟨i, hi, hc⟩, rfl⟩

/-- A signature of a contract is that of a member of its interface. -/
theorem exists_member_of_mem_signatures {s : Signature} (hc : p.contractOf allow interface = .ok c)
    (hs : s ∈ c.signatures) : ∃ ms, p.members interface = .ok ms ∧ ∃ m ∈ ms, m.signature allow = .ok s := by
  obtain ⟨ms, hms, rfl⟩ := contractOf_eq_ok.mp hc
  obtain ⟨outcome, houtcome, hok⟩ := List.mem_filterMap.mp hs
  obtain ⟨m, hm, rfl⟩ := List.mem_map.mp houtcome
  refine ⟨ms, hms, m, (List.mem_filter.mp hm).1, ?_⟩
  cases h : m.signature allow with
  | error cause =>
    rw [InterfaceMember.outcome, h] at hok
    cases hok
  | ok s' =>
    rw [InterfaceMember.outcome, h] at hok
    cases hok
    rfl

theorem isTypeLevel_of_contractOf {d : Diagnostic} (h : p.contractOf allow interface = .error d) :
    d.isTypeLevel = true := by
  rw [contractOf] at h
  split at h
  · cases h
    rfl
  · cases h

/-- A text that is not degenerate has a contract for each target and is written from these. -/
theorem stubSource_of_not_isDegenerate {outputExtension : String}
    (h : (p.stubFile allow outputExtension r).isDegenerate = false) :
    (∀ i ∈ r.interfaces, ∃ c, p.contractOf allow i = .ok c) ∧
      (∀ i ∈ r.interfaces, i.isBase = true) ∧
      ∃ clause, implementsClause r.interfaces = .ok clause ∧
        p.stubSource allow r = .ofContracts r clause (p.contractsOf allow r) := by
  have hlevel : ∀ d ∈ (p.stubSource allow r).diagnostics, d.isTypeLevel = false := by
    simpa [stubFile, StubFile.isDegenerate] using h
  have hcontracts : ∀ i ∈ r.interfaces, ∃ c, p.contractOf allow i = .ok c := by
    intro i hi
    cases hc : p.contractOf allow i with
    | ok c => exact ⟨c, rfl⟩
    | error d =>
      have hfailure : d.withFrame (synthesizeFrame r) ∈ StubSource.failures r (r.interfaces.map (p.contractOf allow)) :=
        List.mem_filterMap.mpr ⟨.error d, List.mem_map.mpr ⟨i, hi, hc⟩, rfl⟩
      rw [stubSource, StubSource.ofRequest_of_failures (List.ne_nil_of_mem hfailure)] at hlevel
      exact Bool.noConfusion
        ((isTypeLevel_of_contractOf hc).symm.trans (hlevel (d.withFrame (synthesizeFrame r)) hfailure))
  have hnone : StubSource.failures r (r.interfaces.map (p.contractOf allow)) = [] := by
    rw [StubSource.failures, List.filterMap_eq_nil_iff]
    intro outcome houtcome
    obtain ⟨i, hi, rfl⟩ := List.mem_map.mp houtcome
    obtain ⟨c, hc⟩ := hcontracts i hi
    rw [hc]
  rw [stubSource, StubSource.ofRequest_of_contracts hnone] at hlevel ⊢
  cases hclause : implementsClause r.interfaces with
  | error cause =>
    rw [hclause] at hlevel
    exact Bool.noConfusion (hlevel _ List.mem_cons_self)
  | ok clause =>
    exact ⟨hcontracts, isBase_of_implementsClause hclause, clause, rfl, rfl⟩

theorem not_isTypeLevel_of_contracts {d : Diagnostic} (h : d ∈ (p.contractsOf allow r).flatMap (·.diagnostics)) :
    d.isTypeLevel = false := by
  obtain ⟨c, hc, hd⟩ := List.mem_flatMap.mp h
  obtain ⟨i, -, hi⟩ := mem_contractsOf.mp hc
  obtain ⟨ms, -, rfl⟩ := contractOf_eq_ok.mp hi
  obtain ⟨outcome, houtcome, herror⟩ := List.mem_filterMap.mp hd
  obtain ⟨m, -, rfl⟩ := List.mem_map.mp houtcome
  rw [InterfaceMember.outcome] at herror
  cases hm : m.signature allow with
  | ok s => rw [hm] at herror; cases herror
  | error cause =>
    rw [hm] at herror
    cases herror
    rfl

/-- A text that is written from contracts is not degenerate. -/
theorem not_isDegenerate_of_contracts {clause outputExtension : String}
    (hnone : StubSource.failures r (r.interfaces.map (p.contractOf allow)) = [])
    (hclause : implementsClause r.interfaces = .ok clause) :
    (p.stubFile allow outputExtension r).isDegenerate = false := by
  have hsource : p.stubSource allow r = _ := StubSource.ofRequest_of_contracts hnone
  rw [hclause] at hsource
  refine Bool.eq_false_iff.mpr fun h => ?_
  rw [stubFile, hsource, StubFile.isDegenerate] at h
  dsimp only at h
  rw [StubSource.diagnostics_ofContracts] at h
  obtain ⟨d, hd, hlevel⟩ := List.any_eq_true.mp h
  obtain ⟨e, he, rfl⟩ := List.mem_map.mp hd
  have hmember : e.isTypeLevel = false := not_isTypeLevel_of_contracts he
  exact Bool.noConfusion (hlevel.symm.trans hmember)

/-- A text that is degenerate is written from failures of the whole text. -/
theorem stubSource_of_isDegenerate {outputExtension : String}
    (h : (p.stubFile allow outputExtension r).isDegenerate = true) :
    ∃ ds, ds ≠ [] ∧ p.stubSource allow r = .ofFailures ds := by
  by_cases hnone : StubSource.failures r (r.interfaces.map (p.contractOf allow)) = []
  · have hsource : p.stubSource allow r = _ := StubSource.ofRequest_of_contracts hnone
    cases hclause : implementsClause r.interfaces with
    | error cause =>
      rw [hclause] at hsource
      exact ⟨_, List.cons_ne_nil _ _, hsource⟩
    | ok clause => exact Bool.noConfusion (h.symm.trans (not_isDegenerate_of_contracts hnone hclause))
  · exact ⟨_, hnone, StubSource.ofRequest_of_failures hnone⟩

/-- A text depends on its request by the type, apart from the ids of its declarations, and by the members of its
targets. -/
theorem stubFile_congr {q : Provider} {s : StubRequest} (outputExtension : String)
    (htarget : { r.target with declarations := [] } = { s.target with declarations := [] }) (huses : r.uses = s.uses)
    (hmembers : ∀ i ∈ r.interfaces, p.members i = q.members i) :
    p.stubFile allow outputExtension r = q.stubFile allow outputExtension s := by
  have hcontracts : r.interfaces.map (p.contractOf allow) = r.interfaces.map (q.contractOf allow) :=
    List.map_congr_left fun i hi => by rw [contractOf, contractOf, hmembers i hi]
  obtain ⟨⟨ns, containers, name, parameters, kind, ids⟩, uses⟩ := r
  obtain ⟨⟨ns', containers', name', parameters', kind', ids'⟩, uses'⟩ := s
  simp only [TargetType.mk.injEq, and_true] at htarget huses
  obtain ⟨rfl, rfl, rfl, rfl, rfl⟩ := htarget
  subst huses
  rw [stubFile, stubFile, stubSource, stubSource, hcontracts]
  rfl

end Provider

/-! ## Using lines -/

theorem mem_usedNamespaces {contracts : List Contract} {ns : String} : ns ∈ (usedNamespaces contracts).names ↔
    (∃ c ∈ contracts, ns ∈ c.namespaces.names ∨ ∃ s ∈ c.signatures, ns ∈ s.declaringInterface.namespaces) ∧
      isGlobalNamespace ns = false := by
  simp [usedNamespaces, NamespaceSet.mem_ofList]

end ContractStubs
