import ContractStubs.Proofs.Stub.Layout
import ContractStubs.Proofs.Text.Order
import ContractStubs.Proofs.TypeRef.Places
import Mathlib.Data.List.Forall2

/-!
# The using lines of a text

The using lines of a text name what its contracts ask for: the namespaces that occur in the references to interfaces and
those that the signatures record. A signature that is made from its types records what occurs in these. The namespaces
ascend in the order of their bytes, and neither the order of the contracts nor that of their members matters
(`StubSource.imports_of_contracts`).
-/

namespace ContractStubs

/-! ## What contracts ask for -/

/-- The namespace occurs in the reference, at any depth. -/
def TypeRef.Mentions (r : TypeRef) (ns : String) : Prop :=
  ∃ place u, r.at? place = some u ∧ u.namespaceName? = some ns

/-- The signature records the namespaces of its types, as one does that is made from them. -/
def Signature.IsOfTypes (s : Signature) : Prop :=
  s = .ofTypes s.name s.typeParameters s.parameters s.returnType s.result s.declaringInterface

/-- The namespace occurs in the interface of a contract or in the declaring interface of a signature, or a signature
records it. -/
def AsksFor (contracts : List Contract) (ns : String) : Prop :=
  ∃ c ∈ contracts, c.interface.Mentions ns ∨
    ∃ s ∈ c.signatures, s.declaringInterface.Mentions ns ∨ ns ∈ s.namespaces.names

/-- The namespace occurs in the interface of a contract or in a type of a signature. -/
def OccursIn (contracts : List Contract) (ns : String) : Prop :=
  ∃ c ∈ contracts, c.interface.Mentions ns ∨
    ∃ s ∈ c.signatures, s.declaringInterface.Mentions ns ∨ s.returnType.Mentions ns ∨
      ∃ q ∈ s.parameters, q.type.Mentions ns

variable {cs ds : List Contract} {ns : String}

theorem Signature.IsOfTypes.mem_namespaces {s : Signature} (h : s.IsOfTypes) : ns ∈ s.namespaces.names ↔
    (s.returnType.Mentions ns ∨ ∃ q ∈ s.parameters, q.type.Mentions ns) ∧ isGlobalNamespace ns = false := by
  rw [h, ofTypes, NamespaceSet.mem_ofList, List.mem_append, List.mem_flatMap]
  simp only [TypeRef.Mentions, TypeRef.mem_namespaces_iff_at?]

/-- The namespaces that a text uses are those that its contracts ask for. -/
theorem mem_usedNamespaces_iff_asksFor :
    ns ∈ (usedNamespaces cs).names ↔ isGlobalNamespace ns = false ∧ AsksFor cs ns := by
  rw [mem_usedNamespaces, and_comm, AsksFor]
  refine and_congr_right fun hglobal => exists_congr fun c => and_congr_right fun _ => ?_
  rw [Contract.namespaces, NamespaceSet.mem_ofList, List.mem_append, List.mem_flatMap, and_iff_left hglobal, or_assoc,
    ← exists_or]
  simp only [TypeRef.Mentions, TypeRef.mem_namespaces_iff_at?, ← and_or_left]
  refine or_congr_right (exists_congr fun s => and_congr_right fun _ => or_comm)

/-- Signatures that are made from their types record no namespaces but those that occur in them. -/
theorem asksFor_iff_occursIn (h : ∀ c ∈ cs, ∀ s ∈ c.signatures, s.IsOfTypes) (hglobal : isGlobalNamespace ns = false) :
    AsksFor cs ns ↔ OccursIn cs ns := by
  refine exists_congr fun c => and_congr_right fun hc => or_congr_right (exists_congr fun s => ?_)
  refine and_congr_right fun hs => or_congr_right ?_
  rw [(h c hc s hs).mem_namespaces, and_iff_left hglobal]

/-- Contracts that were found by looking an interface up have signatures that are made from their types. -/
theorem Provider.isOfTypes_of_mem_contractsOf {p : Provider} {allow : Bool} {r : StubRequest} {c : Contract}
    (hc : c ∈ p.contractsOf allow r) {s : Signature} (hs : s ∈ c.signatures) : s.IsOfTypes := by
  obtain ⟨i, -, hcontract⟩ := mem_contractsOf.mp hc
  obtain ⟨-, -, m, -, hsignature⟩ := exists_member_of_mem_signatures hcontract hs
  obtain ⟨-, -, -, -, hnamespaces⟩ := InterfaceMember.signature_eq_ok hsignature
  rw [Signature.IsOfTypes, Signature.ofTypes, ← hnamespaces]

/-! ## Order -/

/-- The contracts are the same, each with the same members, perhaps in another order. -/
def Rearranged (cs ds : List Contract) : Prop :=
  ∃ es, cs.Perm es ∧ List.Forall₂ (fun c d => c.interface = d.interface ∧ c.members.Perm d.members) es ds

theorem mem_signatures_of_perm {c d : Contract} (h : c.members.Perm d.members) (s : Signature) :
    s ∈ c.signatures ↔ s ∈ d.signatures := (h.filterMap _).mem_iff

theorem AsksFor.congr (h : cs.Perm ds) : AsksFor cs ns ↔ AsksFor ds ns :=
  exists_congr fun _ => and_congr_left fun _ => h.mem_iff

/-- What contracts ask for does not depend on their order and on that of their members. -/
theorem Rearranged.asksFor_iff (h : Rearranged cs ds) : AsksFor cs ns ↔ AsksFor ds ns := by
  obtain ⟨es, hperm, hsame⟩ := h
  rw [AsksFor.congr hperm]
  clear hperm
  unfold AsksFor
  induction hsame with
  | nil => rfl
  | @cons c d cs ds hcd _ ih =>
    rw [List.exists_mem_cons_iff, List.exists_mem_cons_iff, ih, hcd.1]
    simp only [mem_signatures_of_perm hcd.2]

/-! ## Using lines -/

/-- A contract that touches one namespace has this one used. -/
theorem usedNamespaces_of_one {c : Contract} (hglobal : isGlobalNamespace ns = false)
    (hinterface : c.interface.namespaces = [ns])
    (hsignatures : ∀ s ∈ c.signatures, s.namespaces.names ⊆ [ns] ∧ s.declaringInterface.namespaces ⊆ [ns]) :
    usedNamespaces [c] = ⟨[ns]⟩ := by
  have hmem : ∀ n, n ∈ (usedNamespaces [c]).names ↔ n ∈ [ns] := by
    intro n
    rw [mem_usedNamespaces]
    constructor
    · rintro ⟨⟨d, hd, hn⟩, -⟩
      obtain rfl := List.mem_singleton.mp hd
      rcases hn with hn | ⟨s, hs, hn⟩
      · rcases List.mem_append.mp (NamespaceSet.mem_ofList.mp hn).1 with hn | hn
        · exact hinterface ▸ hn
        · obtain ⟨s, hs, hn⟩ := List.mem_flatMap.mp hn
          exact (hsignatures s hs).1 hn
      · exact (hsignatures s hs).2 hn
    · intro hn
      obtain rfl := List.mem_singleton.mp hn
      have htouched : n ∈ c.namespaces.names :=
        NamespaceSet.mem_ofList.mpr ⟨List.mem_append_left _ (hinterface ▸ hn), hglobal⟩
      exact ⟨⟨c, List.mem_singleton_self c, .inl htouched⟩, hglobal⟩
  exact congrArg NamespaceSet.mk (eq_of_pairwise_lt (NamespaceSet.pairwise_ofList _) (List.pairwise_singleton _ ns) hmem)

/-- The using lines for some namespaces and an empty line, or nothing if there are none. -/
def importLines (names : List String) : List String :=
  if names = [] then [] else names.map (fun ns => "using " ++ ns ++ ";") ++ [""]

theorem headLines_eq (namespaces : NamespaceSet) :
    headLines namespaces = ["#nullable enable", ""] ++ importLines namespaces.names := by
  rw [headLines, importLines, NamespaceSet.isEmpty, NamespaceSet.usingLines]
  simp only [List.isEmpty_iff]

namespace StubSource

variable {r : StubRequest}

theorem ofRequest_map_ok (r : StubRequest) (cs : List Contract) : ofRequest r (cs.map .ok) =
    match implementsClause r.interfaces with
    | .error cause => ofFailures [(Diagnostic.ofType cause).withFrame (synthesizeFrame r)]
    | .ok clause => ofContracts r clause cs := by
  have hnone : failures r (cs.map .ok) = [] := by
    rw [failures, List.filterMap_eq_nil_iff]
    rintro outcome houtcome
    obtain ⟨c, -, rfl⟩ := List.mem_map.mp houtcome
    rfl
  have hall : (cs.map .ok).filterMap (Except.toOption (ε := Diagnostic)) = cs := by
    rw [List.filterMap_map]
    exact List.filterMap_some
  have hrequest := ofRequest_of_contracts (r := r) hnone
  rw [hall] at hrequest
  exact hrequest

/-- **The using lines of a text.** A text that is not degenerate begins with one line for each namespace that its
contracts ask for, in ascending order, and with none if they ask for none. Where the signatures are made from their
types, what they ask for is what occurs in the contracts. Contracts in another order give the same lines. -/
theorem imports_of_contracts (h : ((ofRequest r (cs.map .ok)).diagnostics.any Diagnostic.isTypeLevel) = false) :
    ∃ clause names, implementsClause r.interfaces = .ok clause ∧
      (ofRequest r (cs.map .ok)).text =
        "\n".intercalate (["#nullable enable", ""] ++ importLines names ++ r.bodyLines clause cs) ++ "\n" ∧
      names.Pairwise (fun a b => textBytes a < textBytes b) ∧
      (∀ ns, ns ∈ names ↔ isGlobalNamespace ns = false ∧ AsksFor cs ns) ∧
      ((∀ c ∈ cs, ∀ s ∈ c.signatures, s.IsOfTypes) →
        ∀ ns, ns ∈ names ↔ isGlobalNamespace ns = false ∧ OccursIn cs ns) ∧
      ∀ ds, Rearranged cs ds → (ofRequest r (ds.map .ok)).text =
        "\n".intercalate (["#nullable enable", ""] ++ importLines names ++ r.bodyLines clause ds) ++ "\n" := by
  cases hclause : implementsClause r.interfaces with
  | error cause =>
    rw [ofRequest_map_ok, hclause] at h
    exact Bool.noConfusion h
  | ok clause =>
    have htext : ∀ ds, (ofRequest r (ds.map .ok)).text = "\n".intercalate
        (["#nullable enable", ""] ++ importLines (usedNamespaces ds).names ++ r.bodyLines clause ds) ++ "\n" := by
      intro ds
      rw [ofRequest_map_ok, hclause, ← headLines_eq]
      exact text_ofContracts r clause ds
    have hmem : ∀ ns, ns ∈ (usedNamespaces cs).names ↔ isGlobalNamespace ns = false ∧ AsksFor cs ns :=
      fun ns => mem_usedNamespaces_iff_asksFor
    have hascend : ∀ ds, (usedNamespaces ds).names.Pairwise (· < ·) := fun ds => NamespaceSet.pairwise_ofList _
    refine ⟨clause, (usedNamespaces cs).names, rfl, htext cs, (hascend cs).imp textBytes_lt_iff.mpr, hmem, ?_, ?_⟩
    · intro hmade ns
      rw [hmem]
      exact and_congr_right fun hglobal => asksFor_iff_occursIn hmade hglobal
    · intro ds hds
      have hnames : (usedNamespaces ds).names = (usedNamespaces cs).names :=
        eq_of_pairwise_lt (hascend ds) (hascend cs) fun ns => by
          rw [hmem, mem_usedNamespaces_iff_asksFor, hds.asksFor_iff]
      rw [htext, hnames]

/-- A till that wants stubs for an interface of a shop. -/
def till : StubRequest :=
  ⟨⟨some "Shop", [], "Till", [], .classType, [1]⟩, [.targeting (.named (some "Sales") "ISeller" [])]⟩

/-- A method that gives back a tuple, with a parameter for a list. -/
def sell : Signature :=
  .ofTypes "Sell" [] [⟨"basket", .named (some "Lists") "List" [.named (some "Goods") "Item" []], none, none⟩]
    (.named (some "Tasks") "Task"
      [.tuple [(.named (some "Bank") "Bill" [], none), (.bare .keyword "int", some "change")]])
    (.awaitable none) (.named (some "Sales") "ISeller" [])

/-- A method that gives back nothing. -/
def rest : Signature :=
  .ofTypes "Rest" [] [] (.named (some "Tasks") "Task" []) (.awaitable none) (.named (some "Staff") "IWorker" [])

/-- What the till asks for at any depth is imported, whatever comes first. -/
theorem till_imports :
    let seller : TypeRef := .named (some "Sales") "ISeller" []
    let contracts : List Contract := [⟨seller, [.ok sell, .ok rest]⟩]
    (ofRequest till (contracts.map .ok)).diagnostics.any Diagnostic.isTypeLevel = false ∧
      ∃ names body, (ofRequest till (contracts.map .ok)).text =
          "\n".intercalate (["#nullable enable", ""] ++ importLines names ++ body) ++ "\n" ∧
        "Goods" ∈ names ∧ "Bank" ∈ names ∧ "Staff" ∈ names ∧
        ∃ other, (ofRequest till (([⟨seller, [.ok rest, .ok sell]⟩] : List Contract).map .ok)).text =
          "\n".intercalate (["#nullable enable", ""] ++ importLines names ++ other) ++ "\n" := by
  intro seller contracts
  have hwhole : (ofRequest till (contracts.map .ok)).diagnostics.any Diagnostic.isTypeLevel = false := by decide +kernel
  have hmade : ∀ c ∈ contracts, ∀ s ∈ c.signatures, s.IsOfTypes := by
    intro c hc s hs
    obtain rfl := List.mem_singleton.mp hc
    obtain rfl | hs := List.mem_cons.mp hs
    · rfl
    · obtain rfl := List.mem_singleton.mp hs
      rfl
  obtain ⟨clause, names, -, htext, -, -, hoccurs, hother⟩ := imports_of_contracts hwhole
  have hsell : sell ∈ (⟨seller, [.ok sell, .ok rest]⟩ : Contract).signatures := List.mem_cons_self
  have hrest : rest ∈ (⟨seller, [.ok sell, .ok rest]⟩ : Contract).signatures :=
    List.mem_cons_of_mem _ List.mem_cons_self
  refine ⟨hwhole, names, _, htext, (hoccurs hmade _).mpr ⟨by decide +kernel, ?_⟩,
    (hoccurs hmade _).mpr ⟨by decide +kernel, ?_⟩, (hoccurs hmade _).mpr ⟨by decide +kernel, ?_⟩, _, hother _ ?_⟩
  · exact ⟨_, List.mem_cons_self, .inr ⟨sell, hsell, .inr (.inr ⟨_, List.mem_cons_self, [0], _, rfl, rfl⟩)⟩⟩
  · exact ⟨_, List.mem_cons_self, .inr ⟨sell, hsell, .inr (.inl ⟨[0, 0], _, rfl, rfl⟩)⟩⟩
  · exact ⟨_, List.mem_cons_self, .inr ⟨rest, hrest, .inl ⟨[], _, rfl, rfl⟩⟩⟩
  · exact ⟨contracts, List.Perm.refl _, .cons ⟨rfl, List.Perm.swap _ _ _⟩ .nil⟩

/-- A signature that records no namespaces, though its return type is in one, leaves this one out. -/
theorem unrecorded_not_imported :
    let seller : TypeRef := .named (some "Sales") "ISeller" []
    let signature := { rest with namespaces := .empty, declaringInterface := seller }
    let contracts : List Contract := [⟨seller, [.ok signature]⟩]
    (ofRequest till (contracts.map .ok)).diagnostics.any Diagnostic.isTypeLevel = false ∧
      OccursIn contracts "Tasks" ∧ isGlobalNamespace "Tasks" = false ∧
      (ofRequest till (contracts.map .ok)).text = "\n".intercalate ["#nullable enable", "", "using Sales;", "",
        "namespace Shop;", "", "partial class Till : ISeller", "\x7b", "    async Task ISeller.Rest()", "    \x7b",
        "        return;", "    \x7d", "\x7d"] ++ "\n" := by
  intro seller signature contracts
  have hnames : usedNamespaces contracts = ⟨["Sales"]⟩ := by
    refine usedNamespaces_of_one (by decide +kernel) rfl fun s hs => ?_
    obtain rfl := List.mem_singleton.mp hs
    exact ⟨List.nil_subset _, List.Subset.refl _⟩
  have hclause : implementsClause till.interfaces = .ok " : ISeller" := by decide +kernel
  have hlines : headLines ⟨["Sales"]⟩ ++ till.bodyLines " : ISeller" contracts =
      ["#nullable enable", "", "using Sales;", "", "namespace Shop;", "", "partial class Till : ISeller", "\x7b",
        "    async Task ISeller.Rest()", "    \x7b", "        return;", "    \x7d", "\x7d"] := by decide +kernel
  refine ⟨by decide +kernel, ?_, by decide +kernel, ?_⟩
  · exact ⟨_, List.mem_cons_self, .inr ⟨signature, List.mem_cons_self, .inr (.inl ⟨[], _, rfl, rfl⟩)⟩⟩
  · rw [ofRequest_map_ok, hclause]
    dsimp only
    rw [text_ofContracts, hnames, hlines]

end StubSource

end ContractStubs
