import ContractStubs.Proofs.Samples
import ContractStubs.Proofs.Stub.Contracts
import ContractStubs.Proofs.Stub.Written

/-!
# Generated texts keep the meaning of their contracts

The types in a generated text are written without namespaces, which the using lines name. Looked up from the text, in
the scope in which it stands there (`StubRequest.textScope`), each of them comes back exactly where its names still
denote what they stand for (`recovered_iff`). They need not: a type of the target's own namespace hides one of the same
name that a using line would find (`hidden_not_recovered`).
-/

namespace ContractStubs

open TypeExpr

namespace StubRequest

/-- The types that the text with these contracts is written with, each behind the type parameters of the method that it
stands in. -/
def typesInText (r : StubRequest) (contracts : List Contract) : List (List String × TypeRef) :=
  r.interfaces.map (([], ·)) ++ contracts.flatMap fun c => c.signatures.flatMap fun s =>
    (s.declaringInterface :: s.returnType :: s.parameters.map (·.type)).map ((s.typeParameters, ·))

/-- What is visible in the text where a method with some type parameters stands. -/
def textScope (r : StubRequest) (contracts : List Contract) (methodParameters : List String) : Scope :=
  ⟨r.target.namespaceName?, (usedNamespaces contracts).names,
    r.target.containers.flatMap (·.typeParameters) ++ r.target.typeParameters ++ methodParameters⟩

end StubRequest

namespace Program

variable {p : Program} {depth : Nat} {marker : Marker} {ids : List Nat} {allow : Bool} {outputExtension : String}
  {r : StubRequest}

theorem mem_typesInText {contracts : List Contract} {place : List String × TypeRef} :
    place ∈ r.typesInText contracts ↔ (place.1 = [] ∧ place.2 ∈ r.interfaces) ∨
      ∃ c ∈ contracts, ∃ s ∈ c.signatures, place.1 = s.typeParameters ∧
        (place.2 = s.declaringInterface ∨ place.2 = s.returnType ∨ ∃ q ∈ s.parameters, place.2 = q.type) := by
  obtain ⟨parameters, t⟩ := place
  simp only [StubRequest.typesInText, List.mem_append, List.mem_map, List.mem_flatMap, List.mem_cons, Prod.mk.injEq]
  constructor
  · rintro (⟨i, hi, rfl, rfl⟩ | ⟨c, hc, s, hs, u, hu, rfl, rfl⟩)
    · exact .inl ⟨rfl, hi⟩
    · refine .inr ⟨c, hc, s, hs, rfl, hu.imp_right (Or.imp_right ?_)⟩
      rintro ⟨q, hq, rfl⟩
      exact ⟨q, hq, rfl⟩
  · rintro (⟨rfl, hi⟩ | ⟨c, hc, s, hs, rfl, hu⟩)
    · exact .inl ⟨t, hi, rfl, rfl⟩
    · refine .inr ⟨c, hc, s, hs, t, hu.imp_right (Or.imp_right ?_), rfl, rfl⟩
      rintro ⟨q, hq, rfl⟩
      exact ⟨q, hq, rfl⟩

/-- Each type in a text was looked up. -/
theorem written_of_mem_typesInText (hp : p.model.IsRead) (hr : r ∈ (p.provider depth).requests marker ids)
    {place : List String × TypeRef} (h : place ∈ r.typesInText ((p.provider depth).contractsOf allow r)) :
    p.binder.Written place.2 := by
  rcases mem_typesInText.mp h with ⟨-, hi⟩ | ⟨c, hc, s, hs, -, ht⟩
  · exact written_of_mem_interfaces hp hr hi
  · obtain ⟨i, hi, hc⟩ := Provider.mem_contractsOf.mp hc
    obtain ⟨ms, hms, m, hm, hsig⟩ := Provider.exists_member_of_mem_signatures hc hs
    have hmember := memberWritten_of_mem hp (written_of_mem_interfaces hp hr hi) hms hm
    obtain ⟨hdeclaring, hreturn, hparameters, -, -⟩ := InterfaceMember.signature_eq_ok hsig
    rcases ht with ht | ht | ⟨q, hq, ht⟩
    · rw [ht, hdeclaring]
      exact hmember.interface
    · rw [ht]
      exact hmember.returnType _ hreturn
    · rw [ht]
      exact hmember.parameters q (hparameters ▸ hq)

/-- The using lines of a text name the namespaces of each type in it. -/
theorem mem_usedNamespaces_of_mem_typesInText {place : List String × TypeRef} {ns : String}
    (hunit : ((p.provider depth).stubFile allow outputExtension r).isDegenerate = false)
    (h : place ∈ r.typesInText ((p.provider depth).contractsOf allow r)) (hns : ns ∈ place.2.namespaces)
    (hglobal : isGlobalNamespace ns = false) :
    ns ∈ (usedNamespaces ((p.provider depth).contractsOf allow r)).names := by
  refine mem_usedNamespaces.mpr ⟨?_, hglobal⟩
  rcases mem_typesInText.mp h with ⟨-, hi⟩ | ⟨c, hc, s, hs, -, ht⟩
  · obtain ⟨c, hc⟩ := (Provider.stubSource_of_not_isDegenerate hunit).1 _ hi
    obtain ⟨ms, -, hcontract⟩ := Provider.contractOf_eq_ok.mp hc
    refine ⟨c, Provider.mem_contractsOf.mpr ⟨_, hi, hc⟩, .inl (NamespaceSet.mem_ofList.mpr ⟨?_, hglobal⟩)⟩
    exact List.mem_append_left _ (by rw [hcontract]; exact hns)
  · refine ⟨c, hc, ?_⟩
    by_cases hdeclaring : place.2 = s.declaringInterface
    · exact .inr ⟨s, hs, hdeclaring ▸ hns⟩
    · obtain ⟨i, hi, hcontract⟩ := Provider.mem_contractsOf.mp hc
      obtain ⟨ms, hms, m, hm, hsig⟩ := Provider.exists_member_of_mem_signatures hcontract hs
      obtain ⟨-, -, -, -, hnamespaces⟩ := InterfaceMember.signature_eq_ok hsig
      have hsignature : ns ∈ s.namespaces.names := by
        rw [hnamespaces, NamespaceSet.mem_ofList, List.mem_append, List.mem_flatMap]
        refine ⟨?_, hglobal⟩
        rcases ht.resolve_left hdeclaring with ht | ⟨q, hq, ht⟩
        · exact .inl (ht ▸ hns)
        · exact .inr ⟨q, hq, ht ▸ hns⟩
      refine .inl (NamespaceSet.mem_ofList.mpr ⟨?_, hglobal⟩)
      exact List.mem_append_right _ (List.mem_flatMap.mpr ⟨s, hs, hsignature⟩)

/-- **A type in a text that is not degenerate is looked up from it exactly where each of its names denotes there what it
stands for**: where no keyword, no type parameter and no other declared type takes the name. -/
theorem recovered_iff (hp : p.model.IsRead) (hr : r ∈ (p.provider depth).requests marker ids)
    (hunit : ((p.provider depth).stubFile allow outputExtension r).isDegenerate = false) :
    (∃ clause, implementsClause r.interfaces = .ok clause ∧
      (p.provider depth).stubSource allow r =
        .ofContracts r clause ((p.provider depth).contractsOf allow r)) ∧
    ∀ place ∈ r.typesInText ((p.provider depth).contractsOf allow r),
      (∀ ns ∈ place.2.namespaces, isGlobalNamespace ns = false) →
        (p.binder.bind (r.textScope ((p.provider depth).contractsOf allow r) place.1) (parse place.2.toText) = place.2 ↔
          place.2.Everywhere (p.binder.Denotes (r.textScope ((p.provider depth).contractsOf allow r) place.1))) := by
  refine ⟨(Provider.stubSource_of_not_isDegenerate hunit).2.2, fun place hplace hglobal => ?_⟩
  refine (written_of_mem_typesInText hp hr hplace).bind_parse_toText_iff p.binder_isNormal fun ns hns => ?_
  exact mem_usedNamespaces_of_mem_typesInText hunit hplace hns (hglobal ns hns)

/-! ## Two programs -/

/-- The type expressions of a declaration. -/
def typeExprsOf (d : Declaration) : List TypeExpr :=
  d.attributes.flatMap (·.typeArguments) ++ d.baseTypes ++
    d.members.flatMap fun m => m.returnType?.toList ++ m.parameters.map (·.type)

theorem isRead_of_parse_toText {m : Model} (h : ∀ d ∈ m.declarations, ∀ e ∈ typeExprsOf d, e = parse e.toText) :
    m.IsRead := by
  have hall : ∀ d ∈ m.declarations, ∀ e ∈ typeExprsOf d, e.IsRead := fun d hd e he => ⟨e.toText, h d hd e he⟩
  refine fun d hd => ⟨fun a ha e he => hall d hd e ?_, fun e he => hall d hd e ?_, fun n hn => ⟨fun e he => hall d hd e ?_,
    fun q hq => hall d hd q.type ?_⟩⟩ <;> simp only [typeExprsOf, List.mem_append, List.mem_flatMap, List.mem_map]
  · exact .inl (.inl ⟨a, ha, he⟩)
  · exact .inl (.inr he)
  · exact .inr ⟨n, hn, .inl (by simp [he])⟩
  · exact .inr ⟨n, hn, .inr ⟨q, hq, rfl⟩⟩

/-- A class with the marker for one target. -/
def markedClass (namespaceName? : Option String) (name : String) (target : TypeExpr) : Declaration :=
  { interfaceNamed namespaceName? name with kind := .classType, attributes := [⟨"Implement", [target]⟩] }

/-- A generic interface of one namespace, wanted for a type of another. -/
def orders : Program := .ofModel (.ofList [
  { interfaceNamed (some "Data") "IStore" with
    typeParameters := ["T"]
    members := [⟨"Load", .method, false, [], some (.named "Task" [.named "T" [] ""] ""),
      [⟨"id", .named "int" [] "", none, none⟩]⟩] },
  { interfaceNamed (some "Sales") "Order" with kind := .classType },
  markedClass (some "Shop") "Desk" (.named "Data.IStore" [.named "Sales.Order" [] ""] "")]) []

/-- What the class of `orders` asks for. -/
def deskRequest : StubRequest :=
  ⟨⟨some "Shop", [], "Desk", [], .classType, [2]⟩,
    [.targeting (.named (some "Data") "IStore" [.named (some "Sales") "Order" []])]⟩

/-- What the method of `orders` gives back. -/
def orderTask : TypeRef := .named (some "System.Threading.Tasks") "Task" [.named (some "Sales") "Order" []]

theorem order_recovered :
    orders.model.IsRead ∧ deskRequest ∈ (orders.provider 2).requests ⟨"Implement"⟩ [2] ∧
      ((orders.provider 2).stubFile false ".cs" deskRequest).isDegenerate = false ∧
      ([], orderTask) ∈ deskRequest.typesInText ((orders.provider 2).contractsOf false deskRequest) ∧
      (∀ ns ∈ orderTask.namespaces, isGlobalNamespace ns = false) ∧
      (orders.binder.bind (deskRequest.textScope ((orders.provider 2).contractsOf false deskRequest) [])
          (parse orderTask.toText) = orderTask ↔
        orderTask.Everywhere
          (orders.binder.Denotes (deskRequest.textScope ((orders.provider 2).contractsOf false deskRequest) []))) := by
  have hread : orders.model.IsRead := isRead_of_parse_toText (by decide +kernel)
  have hrequest : deskRequest ∈ (orders.provider 2).requests ⟨"Implement"⟩ [2] := by decide +kernel
  have hunit : ((orders.provider 2).stubFile false ".cs" deskRequest).isDegenerate = false := by decide +kernel
  have hplace : ([], orderTask) ∈ deskRequest.typesInText ((orders.provider 2).contractsOf false deskRequest) := by
    decide +kernel
  have hglobal : ∀ ns ∈ orderTask.namespaces, isGlobalNamespace ns = false := by decide +kernel
  exact ⟨hread, hrequest, hunit, hplace, hglobal, (recovered_iff hread hrequest hunit).2 ([], orderTask) hplace hglobal⟩

/-- Two interfaces of one name, one in the namespace of a class that wants the other. -/
def jobs : Program := .ofModel (.ofList [
  interfaceNamed (some "Tools") "IJob", interfaceNamed (some "Shop") "IJob",
  markedClass (some "Shop") "Worker" (.named "Tools.IJob" [] "")]) []

/-- What the class of `jobs` asks for. -/
def workerRequest : StubRequest :=
  ⟨⟨some "Shop", [], "Worker", [], .classType, [2]⟩, [.targeting (.named (some "Tools") "IJob" [])]⟩

theorem hidden_not_recovered :
    jobs.model.IsRead ∧ workerRequest ∈ (jobs.provider 2).requests ⟨"Implement"⟩ [2] ∧
      ((jobs.provider 2).stubFile false ".cs" workerRequest).isDegenerate = false ∧
      ([], TypeRef.named (some "Tools") "IJob" []) ∈
        workerRequest.typesInText ((jobs.provider 2).contractsOf false workerRequest) ∧
      jobs.binder.bind (workerRequest.textScope ((jobs.provider 2).contractsOf false workerRequest) [])
          (parse (TypeRef.named (some "Tools") "IJob" []).toText) = .named (some "Shop") "IJob" [] :=
  ⟨isRead_of_parse_toText (by decide +kernel), by decide +kernel, by decide +kernel, by decide +kernel,
    by decide +kernel⟩

end Program

end ContractStubs
