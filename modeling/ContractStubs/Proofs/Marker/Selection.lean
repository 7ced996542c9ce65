import ContractStubs.Proofs.Marker.Reading
import ContractStubs.Proofs.Pass.Naming
import ContractStubs.Proofs.Samples
import ContractStubs.Proofs.Stub.Contracts

/-!
# Declarations that carry the marker

A declaration that carries a use of the marker is selected if the use is recognized, and then a pass has a file for its
type, be it nothing but comments (`Program.exists_request_of_isPartOf`, `Provider.isDegenerate_of_failure`). A use that
is not recognized goes unnoticed: without another one, the declaration is no candidate and part of no request
(`Generator.follows_use`).
-/

namespace ContractStubs

open TypeExpr

namespace Program

variable {p : Program} {marker : Marker} {d : Declaration} {depth : Nat}

/-! ## Candidates -/

theorem mem_candidates_iff (hm : p.model.IsNumbered) (hd : d ∈ p.model.declarations) :
    d.id ∈ (p.provider depth).candidates marker ↔ isCandidate marker d = true := by
  rw [Provider.candidates, mem_firstOnly, and_iff_left List.not_mem_nil, List.mem_map]
  constructor
  · rintro ⟨e, he, hid⟩
    obtain ⟨hmem, hcandidate⟩ := List.mem_filter.mp he
    exact hm.eq_of_id_eq hmem hd hid ▸ hcandidate
  · exact fun hcandidate => ⟨d, List.mem_filter.mpr ⟨hd, hcandidate⟩, rfl⟩

theorem isPartOf_iff {target : TargetType} (ht : targetOf? d = some target) :
    d.isPartOf marker target.qualifiedName = true ↔ ∃ a ∈ d.attributes, marker.isMatch a.name = true := by
  rw [Declaration.isPartOf, ht]
  simp

/-- A part has its request, which has all its uses of the marker. -/
theorem exists_request_of_isPartOf {name : String} (hd : d ∈ p.model.declarations) (h : d.isPartOf marker name = true) :
    ∃ r ∈ p.requests marker, r.qualifiedName = name ∧ d.id ∈ r.target.declarations ∧
      ∀ u ∈ p.usesOn marker d, u ∈ r.uses := by
  obtain ⟨target, ht, hrequest⟩ := requestOn?_of_isPartOf (p := p) h
  have hname : target.qualifiedName = name := by
    have hany : ((p.requestOn? marker d).any fun r => r.qualifiedName == name) = true := any_requestOn?.trans h
    simpa [hrequest, StubRequest.qualifiedName] using hany
  have hmem : (⟨target, p.usesOn marker d⟩ : StubRequest) ∈ p.model.declarations.filterMap (p.requestOn? marker) :=
    List.mem_filterMap.mpr ⟨d, hd, hrequest⟩
  obtain ⟨r, hr⟩ := exists_groupOf? (List.mem_map.mpr ⟨_, hmem, hname⟩)
  have hrname : r.qualifiedName = name := qualifiedName_of_groupOf? hr
  have hrequests : r ∈ p.requests marker := mem_groups.mpr (hrname ▸ hr)
  obtain ⟨hids, huses, -⟩ := parts_of_mem_requests hrequests
  have hpart : d ∈ p.partsOf marker r.qualifiedName := List.mem_filter.mpr ⟨hd, hrname ▸ h⟩
  refine ⟨r, hrequests, hrname, ?_, fun u hu => ?_⟩
  · rw [hids]
    exact List.mem_map_of_mem hpart
  · rw [huses]
    exact List.mem_flatMap.mpr ⟨d, hpart, hu⟩

/-- What a request is made of carries the marker. -/
theorem isCandidate_of_mem_request (hm : p.model.IsNumbered) (hd : d ∈ p.model.declarations) {r : StubRequest}
    (hr : r ∈ p.requests marker) (hid : d.id ∈ r.target.declarations) : isCandidate marker d = true := by
  rw [(parts_of_mem_requests hr).1, partsOf_eq_candidates] at hid
  obtain ⟨e, he, hid⟩ := List.mem_map.mp hid
  obtain ⟨hmem, hcandidate⟩ := List.mem_filter.mp (List.mem_filter.mp he).1
  exact hm.eq_of_id_eq hmem hd hid ▸ hcandidate

/-- The type arguments of a recognized attribute are among the targets. -/
theorem targeting_mem_usesOn {a : Attribute} {t : TypeExpr} (ha : a ∈ d.attributes)
    (hmatch : marker.isMatch a.name = true) (ht : t ∈ a.typeArguments) :
    .targeting (p.binder.bind (.ofDeclaration d) t) ∈ p.usesOn marker d := by
  refine List.mem_flatMap.mpr ⟨a, ha, ?_⟩
  rw [attributeUses, hmatch]
  cases hargs : a.typeArguments with
  | nil => simp [hargs] at ht
  | cons first rest => exact List.mem_map_of_mem (hargs ▸ ht)

end Program

/-- A target without a contract makes a text degenerate. -/
theorem Provider.isDegenerate_of_failure {p : Provider} {allow : Bool} {r : StubRequest} {outputExtension : String}
    {i : TypeRef} {failure : Diagnostic} (hi : i ∈ r.interfaces) (h : p.contractOf allow i = .error failure) :
    (p.stubFile allow outputExtension r).isDegenerate = true := by
  by_contra hwhole
  obtain ⟨c, hc⟩ := (stubSource_of_not_isDegenerate (Bool.not_eq_true _ ▸ hwhole)).1 i hi
  cases h.symm.trans hc

/-! ## Passes -/

namespace Generator

variable {c : Config} {g : Generator} {m : Model} {d : Declaration} {order : Nat → List Nat} {depth : Nat}
  {front name inner : String}

/-- What a pass makes of a declaration with an attribute that is written as a name with something in angle brackets
behind it. -/
structure FollowsUse (c : Config) (g : Generator) (depth : Nat) (m : Model) (d : Declaration) (report : PassReport)
    (front name inner : String) : Prop where
  /-- The attribute is recognized exactly if what stands between the brackets is a list of types. -/
  recognized : c.markerSought.isMatch (Attribute.ofText (Marker.use front inner)).name = true ↔
    ∃ args, DerivesArgs (tokens inner) args
  /-- Then it has the name and these types as arguments, and the declaration is a candidate. -/
  selected : ∀ args, DerivesArgs (tokens inner) args →
    Attribute.ofText (Marker.use front inner) = ⟨name, args⟩ ∧
      d.id ∈ (c.providerOf depth m).candidates c.markerSought
  /-- If the type of the declaration can be told, there is a request for it with these types as targets, and the pass has
  a file for the request; the file that is made is degenerate if one of the targets has no contract. -/
  served : ∀ args, DerivesArgs (tokens inner) args → ∀ target, Program.targetOf? d = some target →
    ∃ r ∈ (c.program m).requests c.markerSought, r.qualifiedName = target.qualifiedName ∧
      d.id ∈ r.target.declarations ∧
      (∀ t ∈ args, (c.program m).binder.bind (.ofDeclaration d) t ∈ r.interfaces) ∧
      r.target.fileName c.outputExtension ∈ report.files.map (·.identifier) ∧
      (g.cache? = none → g.fileOf (c.providerOf depth m) r ∈ report.files) ∧
      ∀ t ∈ args, ∀ failure, (c.providerOf depth m).contractOf c.allowSynchronousMembers
          ((c.program m).binder.bind (.ofDeclaration d) t) = .error failure →
        (g.fileOf (c.providerOf depth m) r).isDegenerate = true
  /-- Otherwise, and if no other attribute is recognized, the declaration is neither a candidate nor part of a request. -/
  unnoticed : (∀ args, ¬DerivesArgs (tokens inner) args) →
    (∀ a ∈ d.attributes, a ≠ Attribute.ofText (Marker.use front inner) → c.markerSought.isMatch a.name = false) →
    d.id ∉ (c.providerOf depth m).candidates c.markerSought ∧
      ∀ r ∈ (c.program m).requests c.markerSought, d.id ∉ r.target.declarations

/-- **A use of the marker is followed exactly if a list of types stands between its brackets.** -/
theorem follows_use (hm : m.IsNumbered) (hg : ComesOf c g) (horder : IsOrder order) (disk : Disk)
    (hname : c.markerSought.IsNamedBy front name) (hd : d ∈ m.declarations) (hkind : d.kind.acceptsMarker = true)
    (huse : Attribute.ofText (Marker.use front inner) ∈ d.attributes) :
    FollowsUse c g depth m d (g.generate (c.providerOf depth m) .never order disk).1 front name inner := by
  obtain ⟨rfl, hnamed⟩ := hg.settings_and_cache
  have hmodel : (g.config.program m).model.IsNumbered := hm
  have hrequests : g.requestsOf (g.config.providerOf depth m) = (g.config.program m).requests g.config.markerSought :=
    Program.requests_eq hm
  have hrecognized : g.config.markerSought.isMatch (Attribute.ofText (Marker.use front inner)).name = true ↔
      ∃ args, DerivesArgs (tokens inner) args := Marker.isMatch_use_iff hname
  have hcandidates : d.id ∈ (g.config.providerOf depth m).candidates g.config.markerSought ↔
      isCandidate g.config.markerSought d = true := Program.mem_candidates_iff hmodel hd
  refine ⟨hrecognized, ?_, ?_, ?_⟩
  · intro args hargs
    have hmatch := hrecognized.mpr ⟨args, hargs⟩
    refine ⟨Attribute.ofText_use hname hargs, hcandidates.mpr ?_⟩
    rw [isCandidate, hkind, Bool.true_and]
    exact List.any_eq_true.mpr ⟨_, huse, hmatch⟩
  · intro args hargs target ht
    have hmatch := hrecognized.mpr ⟨args, hargs⟩
    have hpart := (Program.isPartOf_iff ht).mpr ⟨_, huse, hmatch⟩
    obtain ⟨r, hr, hrname, hid, huses⟩ := Program.exists_request_of_isPartOf (p := g.config.program m) hd hpart
    have htargets : ∀ t ∈ args, (g.config.program m).binder.bind (.ofDeclaration d) t ∈ r.interfaces := by
      intro t ht
      have hwritten : t ∈ (Attribute.ofText (Marker.use front inner)).typeArguments := by
        rw [Attribute.ofText_use hname hargs]
        exact ht
      exact List.mem_filterMap.mpr ⟨_, huses _ (Program.targeting_mem_usesOn huse hmatch hwritten), rfl⟩
    refine ⟨r, hr, hrname, hid, htargets, ?_, fun hcache => ?_, fun t ht failure hfailure => ?_⟩
    · rw [identifiers_of_named _ disk hnamed horder, hrequests]
      exact List.mem_map_of_mem hr
    · rw [files_of_no_cache hcache horder, hrequests]
      exact List.mem_map_of_mem hr
    · exact Provider.isDegenerate_of_failure (htargets t ht) hfailure
  · intro hargs hothers
    have hno : isCandidate g.config.markerSought d = false := by
      rw [isCandidate, Bool.and_eq_false_iff]
      refine .inr (List.any_eq_false.mpr fun a ha hmatch => ?_)
      by_cases he : a = Attribute.ofText (Marker.use front inner)
      · obtain ⟨args, hderives⟩ := hrecognized.mp (he ▸ hmatch)
        exact hargs args hderives
      · exact Bool.false_ne_true ((hothers a ha he).symm.trans hmatch)
    refine ⟨fun hid => ?_, fun r hr hid => ?_⟩
    · exact Bool.false_ne_true (hno.symm.trans (hcandidates.mp hid))
    · exact Bool.false_ne_true (hno.symm.trans (Program.isCandidate_of_mem_request hmodel hd hr hid))

/-! ## An interface in a generic type -/

/-- An interface in a generic class, and a worker whose attribute is written with some text between the brackets. -/
def workerUsing (inner : String) : Model := .ofList
  [{ Program.interfaceNamed none "IInner" with containers := [⟨"Outer", .classType, ["T"]⟩] },
    { Program.interfaceNamed none "Worker" with
      kind := .classType
      attributes := [.ofText (Marker.use "AddImplementation" inner)] }]

/-- The worker. -/
def usingWorker (inner : String) : Declaration := (workerUsing inner).declarations.getD 1 default

theorem isNamedBy_standard : Config.standard.markerSought.IsNamedBy "AddImplementation" "AddImplementation" := by
  refine ⟨[], "AddImplementation", lexes_iff.mpr ⟨by decide +kernel, hasGrammarMarks_word _⟩, .word _, .inl ?_⟩
  decide +kernel

/-- Without the argument of the enclosing class the interface is followed. -/
theorem plain_use_followed :
    (workerUsing "Outer.IInner").IsNumbered ∧ ComesOf .standard standard ∧ IsOrder inOrder ∧
      Config.standard.markerSought.IsNamedBy "AddImplementation" "AddImplementation" ∧
      usingWorker "Outer.IInner" ∈ (workerUsing "Outer.IInner").declarations ∧
      FollowsUse .standard standard 2 (workerUsing "Outer.IInner") (usingWorker "Outer.IInner")
        (standard.generate (Config.standard.providerOf 2 (workerUsing "Outer.IInner")) .never inOrder ⟨[], []⟩).1
        "AddImplementation" "AddImplementation" "Outer.IInner" ∧
      1 ∈ (Config.standard.providerOf 2 (workerUsing "Outer.IInner")).candidates Config.standard.markerSought := by
  have hd : usingWorker "Outer.IInner" ∈ (workerUsing "Outer.IInner").declarations := by decide +kernel
  have hargs : DerivesArgs (tokens "Outer.IInner") [.named "Outer.IInner" [] ""] := by
    have htokens : tokens "Outer.IInner" = [.word "Outer", .mark '.', .word "IInner"] := by decide +kernel
    rw [htokens]
    exact .one (.plain (.dot "IInner" (.word "Outer")) .nil)
  have hfollows : FollowsUse .standard standard 2 (workerUsing "Outer.IInner") (usingWorker "Outer.IInner") _ _ _ _ :=
    follows_use (Model.isNumbered_ofList _) comesOf_standard isOrder_inOrder ⟨[], []⟩ isNamedBy_standard hd rfl
      List.mem_cons_self
  exact ⟨Model.isNumbered_ofList _, comesOf_standard, isOrder_inOrder, isNamedBy_standard, hd, hfollows,
    (hfollows.selected _ hargs).2⟩

/-- So many angle brackets are open, and all of them are closed in order. -/
def closesAngles : (opened : Nat) → List Char → Bool
  | opened, [] => opened == 0
  | opened, '<' :: cs => closesAngles (opened + 1) cs
  | 0, '>' :: _ => false
  | opened + 1, '>' :: cs => closesAngles opened cs
  | opened, _ :: cs => closesAngles opened cs

/-- With the argument of the enclosing class the brackets are balanced, but the worker goes unnoticed. -/
theorem generic_use_unnoticed :
    Config.standard.markerSought.IsNamedBy "AddImplementation" "AddImplementation" ∧
      closesAngles 0 "Outer<int>.IInner".toList = true ∧
      Config.standard.markerSought.isMatch
        (Attribute.ofText (Marker.use "AddImplementation" "Outer<int>.IInner")).name = false ∧
      (usingWorker "Outer<int>.IInner").kind = .classType ∧
      (Program.targetOf? (usingWorker "Outer<int>.IInner")).isSome ∧
      Attribute.ofText (Marker.use "AddImplementation" "Outer<int>.IInner") ∈
        (usingWorker "Outer<int>.IInner").attributes ∧
      (Config.standard.providerOf 2 (workerUsing "Outer<int>.IInner")).candidates Config.standard.markerSought = [] ∧
      (standard.generate (Config.standard.providerOf 2 (workerUsing "Outer<int>.IInner")) .never inOrder
        ⟨[], []⟩).1.files = [] :=
  ⟨isNamedBy_standard, by decide +kernel, by decide +kernel, rfl, by decide +kernel, List.mem_cons_self,
    by decide +kernel, by decide +kernel⟩

end Generator

end ContractStubs
