import ContractStubs.Proofs.Inheritance.Search
import ContractStubs.Proofs.Lists
import ContractStubs.Proofs.Samples
import ContractStubs.Proofs.Stub.Slots
import Mathlib.Data.List.Pairwise

/-!
# What a text implements

Target by target a text has the methods that are declared by the interfaces that a search from the target enters
(`Program.headersOf_eq`). Where no interface is entered from two targets, the text has each of them exactly once, and
then two methods have one header only where different types are written alike (`Program.implemented_once`).
-/

namespace ContractStubs

/-- A method that is declared by an interface, to be implemented for a constructed one. -/
structure Obligation where
  interface : TypeRef
  declaration : Declaration
  member : MemberDeclaration
  deriving DecidableEq, Repr, Inhabited

namespace MemberDeclaration

/-- The member is a method that is called on an object. -/
def isInstanceMethod (m : MemberDeclaration) : Bool := m.kind == .method && !m.isStatic

/-- The members can be told apart in one interface. -/
def DiffersFrom (m n : MemberDeclaration) : Prop :=
  ¬(m.name = n.name ∧ m.typeParameters = n.typeParameters ∧ m.parameters = n.parameters)

instance (m n : MemberDeclaration) : Decidable (m.DiffersFrom n) := inferInstanceAs (Decidable (¬_))

end MemberDeclaration

namespace Program

variable {p : Program} {depth : Nat} {allow : Bool} {r : StubRequest} {s i : TypeRef} {o : Obligation}

/-- No interface declares a member twice. -/
def DeclaresOnce (p : Program) : Prop :=
  ∀ d ∈ p.model.declarations, d.kind = .interfaceType →
    ((declarationsWithKey p.model.declarations d.key).flatMap (·.members)).Pairwise MemberDeclaration.DiffersFrom

instance : Decidable p.DeclaresOnce := inferInstanceAs (Decidable (∀ d ∈ p.model.declarations, _ → _))

/-- What a constructed interface itself asks for. -/
def obligationsOf (p : Program) (s : TypeRef) : List Obligation :=
  (p.declarationsOf s).flatMap fun d => (d.members.filter MemberDeclaration.isInstanceMethod).map (⟨s, d, ·⟩)

/-- The method as it is asked for. -/
def memberFor (p : Program) (o : Obligation) : InterfaceMember :=
  p.memberOf (p.declarationsOf o.interface) o.interface o.declaration o.member

/-- The header of the method that fulfils an obligation, if all types in it were written. -/
def headerFor? (p : Program) (allow : Bool) (o : Obligation) : Option String := (p.memberFor o).header? allow

/-- The interfaces that a search from an interface enters. -/
def entered (p : Program) (depth : Nat) (i : TypeRef) : List TypeRef := (p.visit depth i []).getD []

/-- What the targets of a request ask for. -/
def obligations (p : Program) (depth : Nat) (r : StubRequest) : List Obligation :=
  (r.interfaces.flatMap (p.entered depth)).flatMap p.obligationsOf

/-! ## From members to obligations -/

theorem filter_declaredMembers (hs : p.isInterface s) :
    (p.declaredMembers s).filter InterfaceMember.isInstanceMethod = (p.obligationsOf s).map p.memberFor := by
  rw [declaredMembers, isInterface_iff.mp hs]
  dsimp only
  rw [ownMembers, obligationsOf, List.filter_flatMap, List.map_flatMap]
  simp only [List.filter_map, List.map_map]
  rfl

theorem interface_of_mem_obligationsOf (h : o ∈ p.obligationsOf s) : o.interface = s := by
  obtain ⟨d, -, h⟩ := List.mem_flatMap.mp h
  obtain ⟨m, -, rfl⟩ := List.mem_map.mp h
  rfl

/-- An interface that declares nothing twice asks for nothing twice. -/
theorem nodup_obligationsOf (hp : p.DeclaresOnce) (hs : p.isInterface s) : (p.obligationsOf s).Nodup := by
  obtain ⟨-, hne, hall⟩ := interfaceDeclarations_eq_ok.mp (isInterface_iff.mp hs)
  obtain ⟨d, hd⟩ := List.exists_mem_of_ne_nil _ hne
  obtain ⟨hkind, hmem, hkey⟩ := mem_declarationsOf.mp hd
  have hdecls : p.declarationsOf s = declarationsWithKey p.model.declarations d.key := by
    rw [declarationsOf, if_pos hkind, hkey]
    rfl
  have hmembers : ((p.declarationsOf s).flatMap (·.members)).Nodup := by
    rw [hdecls]
    refine (hp d hmem (hall d hd)).imp fun hdiff he => ?_
    exact hdiff (he ▸ ⟨rfl, rfl, rfl⟩)
  have hasked : (p.obligationsOf s).map (·.member) =
      ((p.declarationsOf s).flatMap (·.members)).filter MemberDeclaration.isInstanceMethod := by
    rw [obligationsOf, List.map_flatMap, List.filter_flatMap]
    simp only [List.map_map, Function.comp_def, List.map_id']
  refine List.Nodup.of_map (·.member) ?_
  rw [hasked]
  exact hmembers.filter _

/-! ## What a search enters -/

theorem visit_of_members {ms : List InterfaceMember} (h : (p.provider depth).members i = .ok ms) :
    p.visit depth i [] = some (p.entered depth i) ∧ ms = (p.entered depth i).flatMap p.declaredMembers := by
  obtain ⟨visited, hv, hms⟩ := members_of_visited (membersWithin?_of_members h)
  rw [entered, hv]
  exact ⟨rfl, hms⟩

theorem nodup_entered (h : p.visit depth i [] = some (p.entered depth i)) : (p.entered depth i).Nodup :=
  List.Nodup.of_map _ ((visit_explores h).nodup List.nodup_nil)

/-- What a search enters is inherited from. -/
theorem inherits_of_mem_entered (h : p.visit depth i [] = some (p.entered depth i)) (hs : s ∈ p.entered depth i) :
    p.Inherits i s :=
  (visit_explores h).inherits_of_mem hs

/-- A search enters all that is inherited from where texts differ. -/
theorem mem_entered_iff (h : p.visit depth i [] = some (p.entered depth i)) (hdiff : p.TextsDiffer i) :
    s ∈ p.entered depth i ↔ p.Inherits i s :=
  ⟨inherits_of_mem_entered h, (visit_explores h).mem_of_textsDiffer hdiff⟩

/-! ## The methods of a text -/

/-- Each target of a text that is not degenerate was searched to the end. -/
theorem visit_of_not_isDegenerate {outputExtension : String}
    (h : ((p.provider depth).stubFile allow outputExtension r).isDegenerate = false) (hi : i ∈ r.interfaces) :
    p.visit depth i [] = some (p.entered depth i) ∧
      (p.provider depth).contractOf allow i = .ok ⟨i, (((p.entered depth i).flatMap p.obligationsOf).map p.memberFor).map
        fun m => m.outcome allow (introspectFrame i)⟩ := by
  obtain ⟨hcontracts, -⟩ := Provider.stubSource_of_not_isDegenerate h
  obtain ⟨c, hc⟩ := hcontracts i hi
  obtain ⟨ms, hms, rfl⟩ := Provider.contractOf_eq_ok.mp hc
  obtain ⟨hvisit, rfl⟩ := visit_of_members hms
  have hasked : ((p.entered depth i).flatMap p.declaredMembers).filter InterfaceMember.isInstanceMethod =
      ((p.entered depth i).flatMap p.obligationsOf).map p.memberFor := by
    rw [List.filter_flatMap, List.map_flatMap]
    refine List.flatMap_congr fun s hs => ?_
    exact filter_declaredMembers (inherits_of_mem_entered hvisit hs).isInterface
  rw [hc, hasked]
  exact ⟨hvisit, rfl⟩

/-- **A text has the methods that its targets ask for, one after the other.** -/
theorem headersOf_eq {outputExtension : String}
    (h : ((p.provider depth).stubFile allow outputExtension r).isDegenerate = false) :
    (p.provider depth).headersOf allow r = (p.obligations depth r).filterMap (p.headerFor? allow) := by
  have hcontracts : (p.provider depth).contractsOf allow r = r.interfaces.map fun i =>
      ⟨i, (((p.entered depth i).flatMap p.obligationsOf).map p.memberFor).map
        fun m => m.outcome allow (introspectFrame i)⟩ := by
    rw [Provider.contractsOf, List.filterMap_map, ← List.filterMap_eq_map]
    refine List.filterMap_congr fun i hi => ?_
    rw [Function.comp, (visit_of_not_isDegenerate h hi).2]
    rfl
  rw [Provider.headersOf, Provider.membersOf, hcontracts, obligations, List.flatMap_map, List.flatMap_assoc,
    List.map_flatMap, List.filterMap_flatMap, List.filterMap_flatMap]
  refine List.flatMap_congr fun i _ => ?_
  rw [List.map_map, List.map_map, List.filterMap_map]
  refine List.filterMap_congr fun o _ => ?_
  exact memberHeader?_outcome (p.memberFor o) (introspectFrame i)

/-- **What the targets ask for is implemented once, if no interface is entered from two of them**: the text has the
methods of all obligations, one after the other, and no obligation comes twice. Then two methods have one header exactly
where different obligations are written alike. -/
theorem implemented_once (hp : p.DeclaresOnce) {outputExtension : String}
    (h : ((p.provider depth).stubFile allow outputExtension r).isDegenerate = false)
    (hapart : r.interfaces.Pairwise fun i j => ∀ s ∈ p.entered depth i, s ∉ p.entered depth j) :
    ((p.provider depth).stubFile allow outputExtension r).HasMethods r ((p.provider depth).headersOf allow r) ∧
      (p.provider depth).headersOf allow r = (p.obligations depth r).filterMap (p.headerFor? allow) ∧
      (p.obligations depth r).Nodup ∧
      (∀ i ∈ r.interfaces, ∀ s, (s ∈ p.entered depth i → p.Inherits i s) ∧
        (p.TextsDiffer i → (s ∈ p.entered depth i ↔ p.Inherits i s))) ∧
      (((p.provider depth).headersOf allow r).Nodup ↔
        ∀ o ∈ p.obligations depth r, ∀ o' ∈ p.obligations depth r, ∀ header,
          p.headerFor? allow o = some header → p.headerFor? allow o' = some header → o = o') := by
  have hvisit : ∀ i ∈ r.interfaces, p.visit depth i [] = some (p.entered depth i) := fun i hi =>
    (visit_of_not_isDegenerate h hi).1
  have hentered : (r.interfaces.flatMap (p.entered depth)).Nodup := by
    rw [List.nodup_flatMap]
    refine ⟨fun i hi => nodup_entered (hvisit i hi), hapart.imp fun hdisjoint s hs hs' => ?_⟩
    exact hdisjoint s hs hs'
  have hinterface : ∀ s ∈ r.interfaces.flatMap (p.entered depth), p.isInterface s := by
    intro s hs
    obtain ⟨i, hi, hs⟩ := List.mem_flatMap.mp hs
    exact (inherits_of_mem_entered (hvisit i hi) hs).isInterface
  have hnodup : (p.obligations depth r).Nodup := by
    rw [obligations, List.nodup_flatMap]
    refine ⟨fun s hs => nodup_obligationsOf hp (hinterface s hs), hentered.imp fun hne o ho ho' => ?_⟩
    exact hne ((interface_of_mem_obligationsOf ho).symm.trans (interface_of_mem_obligationsOf ho'))
  have heq := headersOf_eq h
  refine ⟨Provider.hasMethods_headersOf h, heq, hnodup, fun i hi s => ?_, ?_⟩
  · exact ⟨inherits_of_mem_entered (hvisit i hi), mem_entered_iff (hvisit i hi)⟩
  · rw [heq]
    exact nodup_filterMap_iff hnodup

/-! ## Two workers -/

theorem greetings_once :
    let r := workerAsking 3 [.named none "IGreeter" [], .named none "IWaiter" []]
    r ∈ greetings.standardRequests ∧ greetings.DeclaresOnce ∧
      ((greetings.provider 3).stubFile false ".g.cs" r).isDegenerate = false ∧
      (r.interfaces.Pairwise fun i j => ∀ s ∈ greetings.entered 3 i, s ∉ greetings.entered 3 j) ∧
      ((greetings.provider 3).stubFile false ".g.cs" r).HasMethods r
        ["async Task IGreeter.Say()", "async Task IFarewell.Leave()", "async Task IWaiter.Say()"] ∧
      (greetings.obligations 3 r).Nodup := by
  intro r
  have hunique : greetings.DeclaresOnce := by decide
  have hunit : ((greetings.provider 3).stubFile false ".g.cs" r).isDegenerate = false := by decide +kernel
  have hapart : r.interfaces.Pairwise fun i j => ∀ s ∈ greetings.entered 3 i, s ∉ greetings.entered 3 j := by
    decide +kernel
  have hheaders : (greetings.provider 3).headersOf false r =
      ["async Task IGreeter.Say()", "async Task IFarewell.Leave()", "async Task IWaiter.Say()"] := by decide +kernel
  obtain ⟨hmethods, -, hnodup, -⟩ := implemented_once hunique hunit hapart
  rw [hheaders] at hmethods
  exact ⟨by decide +kernel, hunique, hunit, hapart, hmethods, hnodup⟩

/-- Interfaces of one name in two namespaces. -/
def namesakes : Program := .ofModel (.ofList [speaking (some "Shop") "IGreeter" "Say" [],
  speaking (some "Bank") "IGreeter" "Say" [], workerFor ["Shop.IGreeter", "Bank.IGreeter"]]) []

/-- Targets of one name have members of one header, though nothing is entered from both. -/
theorem headers_repeat :
    let r := workerAsking 2 [.named (some "Shop") "IGreeter" [], .named (some "Bank") "IGreeter" []]
    namesakes.DeclaresOnce ∧ r ∈ namesakes.standardRequests ∧ r.interfaces.Nodup ∧
      (r.interfaces.Pairwise fun i j => ∀ s ∈ namesakes.entered 3 i, s ∉ namesakes.entered 3 j) ∧
      ((namesakes.provider 3).stubFile false ".g.cs" r).HasMethods r
        ["async Task IGreeter.Say()", "async Task IGreeter.Say()"] := by
  intro r
  have hunit : ((namesakes.provider 3).stubFile false ".g.cs" r).isDegenerate = false := by decide +kernel
  have hheaders : (namesakes.provider 3).headersOf false r =
      ["async Task IGreeter.Say()", "async Task IGreeter.Say()"] := by decide +kernel
  have hmethods := Provider.hasMethods_headersOf hunit
  rw [hheaders] at hmethods
  exact ⟨by decide, by decide +kernel, by decide, by decide +kernel, hmethods⟩

end Program

end ContractStubs
