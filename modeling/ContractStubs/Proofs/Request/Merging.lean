import ContractStubs.Proofs.Request.Parts
import ContractStubs.Proofs.Samples
import ContractStubs.Proofs.Target.Name

/-!
# Which candidates are merged

Candidates are in one request exactly where their types have one qualified name (`Program.mergesByName`). Declarations
of one type are, and of types in one namespace no others are. But a qualified name does not tell a piece of the namespace
from an enclosing type: what is declared in the namespace `Demo.Outer` is merged with what is nested in the type `Outer`
of the namespace `Demo` (`Program.widgets_merged`).
-/

namespace ContractStubs

/-- Two candidates are in one of the requests. -/
def AreMerged (rs : List StubRequest) (i j : Nat) : Prop :=
  ∃ r ∈ rs, i ∈ r.target.declarations ∧ j ∈ r.target.declarations

instance (rs : List StubRequest) (i j : Nat) : Decidable (AreMerged rs i j) :=
  inferInstanceAs (Decidable (∃ r ∈ rs, i ∈ r.target.declarations ∧ j ∈ r.target.declarations))

/-- What is declared for a group is what is declared for its candidates. -/
theorem mem_declarations_of_mem_groups {qs : List StubRequest} {r : StubRequest} {i : Nat} (hr : r ∈ groups qs) :
    i ∈ r.target.declarations ↔ ∃ q ∈ qs, q.qualifiedName = r.qualifiedName ∧ i ∈ q.target.declarations := by
  rw [(of_mem_groups hr).1, List.mem_flatMap]
  simp only [List.mem_filter, decide_eq_true_eq, and_assoc]

/-- Candidates are merged where they have one name. -/
theorem areMerged_groups {qs : List StubRequest} {i j : Nat} : AreMerged (groups qs) i j ↔
    ∃ q ∈ qs, ∃ s ∈ qs, i ∈ q.target.declarations ∧ j ∈ s.target.declarations ∧ q.qualifiedName = s.qualifiedName := by
  constructor
  · rintro ⟨r, hr, hi, hj⟩
    obtain ⟨q, hq, hqr, hi⟩ := (mem_declarations_of_mem_groups hr).mp hi
    obtain ⟨s, hs, hsr, hj⟩ := (mem_declarations_of_mem_groups hr).mp hj
    exact ⟨q, hq, s, hs, hi, hj, hqr.trans hsr.symm⟩
  · rintro ⟨q, hq, s, hs, hi, hj, hname⟩
    obtain ⟨r, hr⟩ := exists_groupOf? (List.mem_map_of_mem (f := StubRequest.qualifiedName) hq)
    have hqr : r.qualifiedName = q.qualifiedName := qualifiedName_of_groupOf? hr
    have hmem : r ∈ groups qs := mem_groups.mpr (hqr ▸ hr)
    refine ⟨r, hmem, ?_, ?_⟩
    · exact (mem_declarations_of_mem_groups hmem).mpr ⟨q, hq, hqr.symm, hi⟩
    · exact (mem_declarations_of_mem_groups hmem).mpr ⟨s, hs, hname.symm.trans hqr.symm, hj⟩

/-- What the requests for some candidates tell about two of them, given the types that these declare. -/
structure MergesByName (rs : List StubRequest) (i j : Nat) (t u : TargetType) : Prop where
  /-- They are merged exactly where their types have one qualified name. -/
  names : AreMerged rs i j ↔ t.qualifiedName = u.qualifiedName
  /-- Declarations of one type are merged. -/
  same : t.IsSameType u → AreMerged rs i j
  /-- Of types in one namespace no others are. -/
  namespaces : t.HasPlainParameters → u.HasPlainParameters →
    (t.IsSameType u ↔ AreMerged rs i j ∧ t.namespaceName? = u.namespaceName?)
  /-- Of types in any namespaces those are whose names have the same parts, wherever the namespaces end. -/
  parts : t.HasPlainParameters → u.HasPlainParameters → t.HasPlainNamespace → u.HasPlainNamespace →
    (AreMerged rs i j ↔ t.nameParts = u.nameParts)

namespace Program

variable {p : Program} {marker : Marker} {depth : Nat} {ids : List Nat} {i j : Nat} {t u : TargetType}

/-- The names of a type that can be told are identifiers. -/
theorem hasIdentifiers_of_targetOf? {d : Declaration} (h : targetOf? d = some t) : t.HasIdentifiers := by
  rw [(of_targetOf?_eq_some h).2]
  rw [targetOf?] at h
  split at h
  next hvalid =>
    simp only [Bool.and_eq_true, List.all_eq_true] at hvalid
    obtain ⟨⟨-, hname⟩, hcontainers⟩ := hvalid
    intro n hn
    rcases List.mem_append.mp hn with hn | hn
    · obtain ⟨c, hc, rfl⟩ := List.mem_map.mp hn
      exact hcontainers c hc
    · obtain rfl := List.mem_singleton.mp hn
      exact hname
  next => cases h

theorem hasIdentifiers_of_target? (h : p.target? i = some t) : t.HasIdentifiers := by
  obtain ⟨d, -, hd⟩ := Option.bind_eq_some_iff.mp h
  exact hasIdentifiers_of_targetOf? hd

theorem declarations_of_target? (hm : p.model.IsNumbered) (h : p.target? i = some t) : t.declarations = [i] := by
  obtain ⟨d, hget, hd⟩ := Option.bind_eq_some_iff.mp h
  rw [(of_targetOf?_eq_some hd).2, hm i d hget]

/-- The declaration with an id declares this type and uses the marker. -/
structure IsMarked (p : Program) (marker : Marker) (i : Nat) (t : TargetType) : Prop where
  target : p.target? i = some t
  uses : (p.markerUses? i marker).isSome

theorem IsMarked.exists_requestOf? (h : p.IsMarked marker i t) (depth : Nat) :
    ∃ q, (p.provider depth).requestOf? marker i = some q ∧ q.target = t := by
  obtain ⟨uses, huses⟩ := Option.isSome_iff_exists.mp h.uses
  refine ⟨⟨t, uses⟩, ?_, rfl⟩
  simp only [Provider.requestOf?, provider, h.target, huses, Option.bind_some, Option.map_some]

theorem target?_of_requestOf? {q : StubRequest} (h : (p.provider depth).requestOf? marker i = some q) :
    p.target? i = some q.target := by
  obtain ⟨t, ht, hq⟩ := Option.bind_eq_some_iff.mp h
  obtain ⟨uses, -, rfl⟩ := Option.map_eq_some_iff.mp hq
  exact ht

theorem areMerged_iff (hm : p.model.IsNumbered) (hi : i ∈ ids) (hj : j ∈ ids) (ht : p.IsMarked marker i t)
    (hu : p.IsMarked marker j u) :
    AreMerged ((p.provider depth).requests marker ids) i j ↔ t.qualifiedName = u.qualifiedName := by
  -- the only candidate that an id is declared for is that of the declaration itself
  have honly : ∀ {k : Nat} {v : TargetType} {q : StubRequest}, p.IsMarked marker k v →
      q ∈ ids.filterMap ((p.provider depth).requestOf? marker) → k ∈ q.target.declarations → q.target = v := by
    intro k v q hv hq hk
    obtain ⟨k', -, hq⟩ := List.mem_filterMap.mp hq
    have htarget := target?_of_requestOf? hq
    rw [declarations_of_target? hm htarget] at hk
    obtain rfl := List.mem_singleton.mp hk
    exact Option.some.inj (htarget.symm.trans hv.target)
  rw [Provider.requests_eq_groups, areMerged_groups]
  constructor
  · rintro ⟨q, hq, s, hs, hqi, hsj, hname⟩
    rwa [StubRequest.qualifiedName, StubRequest.qualifiedName, honly ht hq hqi, honly hu hs hsj] at hname
  · intro hname
    obtain ⟨q, hq, rfl⟩ := ht.exists_requestOf? depth
    obtain ⟨s, hs, rfl⟩ := hu.exists_requestOf? depth
    refine ⟨q, List.mem_filterMap.mpr ⟨i, hi, hq⟩, s, List.mem_filterMap.mpr ⟨j, hj, hs⟩, ?_, ?_, hname⟩
    · rw [declarations_of_target? hm ht.target]
      exact List.mem_singleton_self i
    · rw [declarations_of_target? hm hu.target]
      exact List.mem_singleton_self j

/-- **Candidates are merged by the qualified names of their types.** -/
theorem mergesByName (hm : p.model.IsNumbered) (hi : i ∈ ids) (hj : j ∈ ids) (ht : p.IsMarked marker i t)
    (hu : p.IsMarked marker j u) : MergesByName ((p.provider depth).requests marker ids) i j t u := by
  have hnames : AreMerged ((p.provider depth).requests marker ids) i j ↔ t.qualifiedName = u.qualifiedName :=
    areMerged_iff hm hi hj ht hu
  have hti := hasIdentifiers_of_target? ht.target
  have hui := hasIdentifiers_of_target? hu.target
  refine ⟨hnames, fun h => hnames.mpr h.qualifiedName_eq, fun htp hup => ?_, fun htp hup htn hun => ?_⟩
  · rw [hnames]
    exact TargetType.isSameType_iff (TargetType.isPlain_of_mem_typeParts hti htp)
      (TargetType.isPlain_of_mem_typeParts hui hup)
  · rw [hnames]
    exact TargetType.qualifiedName_eq_iff (TargetType.isPlain_of_mem_nameParts hti htp htn)
      (TargetType.isPlain_of_mem_nameParts hui hup hun)

/-! ## A namespace and a type of one name -/

/-- A part of a widget that wants stubs for an interface. -/
def widget (namespaceName : String) (containers : List Container) (target : String) : Declaration :=
  { interfaceNamed (some namespaceName) "Widget" with
    kind := .classType
    containers := containers
    attributes := [⟨"AddImplementation", [.named target [] ""]⟩] }

/-- A widget in a namespace, and one in two parts that is nested in a type. -/
def widgets : Program := .ofModel (.ofList [interfaceNamed none "IFirst", interfaceNamed none "ISecond",
  widget "Demo.Outer" [] "IFirst", widget "Demo" [⟨"Outer", .classType, []⟩] "ISecond",
  widget "Demo" [⟨"Outer", .classType, []⟩] "IFirst"]) []

/-- The type that a declaration of a widget declares. -/
def widgetType (namespaceName : String) (containers : List Container) (id : Nat) : TargetType :=
  ⟨some namespaceName, containers, "Widget", [], .classType, [id]⟩

/-- The two parts of one widget are merged. -/
theorem widget_parts_merged :
    let marker : Marker := ⟨"AddImplementation"⟩
    let ids := (widgets.provider 1).candidates marker
    let rs := (widgets.provider 1).requests marker ids
    let third := widgetType "Demo" [⟨"Outer", .classType, []⟩] 3
    let fourth := widgetType "Demo" [⟨"Outer", .classType, []⟩] 4
    widgets.model.IsNumbered ∧ 3 ∈ ids ∧ 4 ∈ ids ∧ widgets.IsMarked marker 3 third ∧
      widgets.IsMarked marker 4 fourth ∧ third.IsSameType fourth ∧ AreMerged rs 3 4 ∧ MergesByName rs 3 4 third fourth := by
  intro marker ids rs third fourth
  have hthree : 3 ∈ ids := by decide +kernel
  have hfour : 4 ∈ ids := by decide +kernel
  have hthird : widgets.IsMarked marker 3 third := ⟨by decide +kernel, by decide +kernel⟩
  have hfourth : widgets.IsMarked marker 4 fourth := ⟨by decide +kernel, by decide +kernel⟩
  have hsame : third.IsSameType fourth := ⟨rfl, rfl, rfl, rfl⟩
  have hmerges : MergesByName rs 3 4 third fourth :=
    mergesByName (Model.isNumbered_ofList _) hthree hfour hthird hfourth
  exact ⟨Model.isNumbered_ofList _, hthree, hfour, hthird, hfourth, hsame, hmerges.same hsame, hmerges⟩

/-- The widget in the namespace `Demo.Outer` and the one in the type `Outer` of the namespace `Demo` are merged, though
they are two types: one class is to implement the interfaces of both. -/
theorem widgets_merged :
    let marker : Marker := ⟨"AddImplementation"⟩
    let rs := (widgets.provider 1).requests marker ((widgets.provider 1).candidates marker)
    let second := widgetType "Demo.Outer" [] 2
    let third := widgetType "Demo" [⟨"Outer", .classType, []⟩] 3
    widgets.IsMarked marker 2 second ∧ widgets.IsMarked marker 3 third ∧ ¬second.IsSameType third ∧
      AreMerged rs 2 3 ∧
      rs.map (fun r => r.interfaces.map TypeRef.toText) = [["IFirst", "ISecond", "IFirst"]] := by
  intro marker rs second third
  refine ⟨⟨by decide +kernel, by decide +kernel⟩, ⟨by decide +kernel, by decide +kernel⟩, fun hsame => ?_,
    by decide +kernel, by decide +kernel⟩
  exact absurd hsame.namespaceName? (by decide)

end Program

end ContractStubs
