import ContractStubs.Proofs.Pass.Repetition
import ContractStubs.Proofs.Request.Merging
import ContractStubs.Proofs.Samples

/-!
# The names of the files of a pass

A pass that is not stopped has files with the names of their types, from the cache or new
(`Generator.identifiers_of_named`). Types have different qualified names, but square brackets stand for angle brackets in
the names of files: two files have one name exactly where the names of their types differ in the shape of brackets only,
and then a sink is not given the second (`Generator.namesFiles`, `Generator.rows_collide`). Where no square bracket is in
a namespace or in a type parameter, all files have different names and all are given to the sink.
-/

namespace ContractStubs

/-! ## Names without square brackets -/

/-- No square bracket is in a namespace or in a type parameter. -/
def Model.HasAngularNames (m : Model) : Prop :=
  ∀ d ∈ m.declarations, (∀ ns ∈ d.namespaceName?, IsAngular ns) ∧
    ∀ p ∈ d.containers.flatMap (·.typeParameters) ++ d.typeParameters, IsAngular p

instance (m : Model) : Decidable m.HasAngularNames :=
  inferInstanceAs (Decidable (∀ d ∈ m.declarations, (∀ ns ∈ d.namespaceName?, IsAngular ns) ∧
    ∀ p ∈ d.containers.flatMap (·.typeParameters) ++ d.typeParameters, IsAngular p))

namespace Program

variable {p : Program} {marker : Marker} {r : StubRequest} {d : Declaration} {t : TargetType}

theorem hasAngularNames_of_targetOf? (hns : ∀ ns ∈ d.namespaceName?, IsAngular ns)
    (hp : ∀ p ∈ d.containers.flatMap (·.typeParameters) ++ d.typeParameters, IsAngular p)
    (h : targetOf? d = some t) : t.HasAngularNames := by
  rw [(of_targetOf?_eq_some h).2]
  refine ⟨?_, ?_⟩
  · intro ns hsome
    exact hns ns (Option.filter_eq_some_iff.mp hsome).1
  · intro n hn p hmem
    rcases List.mem_append.mp hn with hn | hn
    · obtain ⟨c, hc, rfl⟩ := List.mem_map.mp hn
      exact hp p (List.mem_append_left _ (List.mem_flatMap.mpr ⟨c, hc, hmem⟩))
    · obtain rfl := List.mem_singleton.mp hn
      exact hp p (List.mem_append_right _ hmem)

/-- Without square brackets in the program there are none in the names of the types that stubs are wanted for. -/
theorem isAngular_qualifiedName (hp : p.model.HasAngularNames) (h : r ∈ p.requests marker) :
    IsAngular r.qualifiedName := by
  obtain ⟨-, -, first, rest, target, hparts, ht, hsame⟩ := parts_of_mem_requests h
  have hfirst : first ∈ p.model.declarations := List.mem_of_mem_filter (hparts ▸ List.mem_cons_self)
  obtain ⟨hns, hparameters⟩ := hp first hfirst
  have hnames := congrArg TargetType.qualifiedName hsame
  have hname : r.qualifiedName = target.qualifiedName := hnames
  rw [hname]
  exact TargetType.isAngular_qualifiedName (hasIdentifiers_of_targetOf? ht)
    (hasAngularNames_of_targetOf? hns hparameters ht)

/-- The names of files differ exactly where no two types differ in the shape of brackets only. -/
theorem nodup_fileNames_iff (rs : List StubRequest) (outputExtension : String) :
    (rs.map fun r => r.target.fileName outputExtension).Nodup ↔
      rs.Pairwise fun r s => ¬List.Forall₂ IsAlikeInFiles r.qualifiedName.toList s.qualifiedName.toList := by
  rw [List.nodup_iff_pairwise_ne, List.pairwise_map]
  have hne : ∀ r s : StubRequest, r.target.fileName outputExtension ≠ s.target.fileName outputExtension ↔
      ¬List.Forall₂ IsAlikeInFiles r.qualifiedName.toList s.qualifiedName.toList := by
    intro r s
    exact not_congr fileNameOf_eq_iff
  simp only [hne]

/-- Without square brackets the names of files differ, since the qualified names do. -/
theorem nodup_fileNames_of_hasAngularNames (hp : p.model.HasAngularNames) (outputExtension : String) :
    ((p.requests marker).map fun r => r.target.fileName outputExtension).Nodup := by
  have hnames := nodup_groups (p.model.declarations.filterMap (p.requestOn? marker))
  rw [List.nodup_iff_pairwise_ne, List.pairwise_map] at hnames ⊢
  apply List.Pairwise.imp_of_mem _ hnames
  intro r s hr hs hne hname
  apply hne
  exact fileNameOf_inj (isAngular_qualifiedName hp hr) (isAngular_qualifiedName hp hs) hname

end Program

/-! ## Caches of named files -/

namespace Generator

variable {g : Generator} {c : Config} {provider : Provider} {token : CancelToken} {order : Nat → List Nat} {disk : Disk}
  {cache? : Option StubCache}

/-- If a request can find the entry, the file is named by the type of the request. -/
def IsNamed (g : Generator) (e : CacheEntry) : Prop :=
  ∀ (provider : Provider) (r : StubRequest), e.typeName = r.qualifiedName → e.fingerprint = g.fingerprintOf provider r →
    e.file.identifier = r.target.fileName g.config.outputExtension

/-- All files that can be found in the cache are named by their types. -/
def HasNamedCache (g : Generator) : Prop := Holds g.IsNamed g.cache?

/-- The file for a request has the name of its type, from the cache or new. -/
theorem identifier_slotFor (provider : Provider) (hcache : Holds g.IsNamed cache?) (r : StubRequest) :
    ((slotFor g.config provider cache? r).1.product provider g.options).file.identifier =
      r.target.fileName g.config.outputExtension := by
  cases cache? with
  | none => rfl
  | some cache =>
    rw [slotFor]
    dsimp only
    cases hget : (cache.get r.qualifiedName (provider.fingerprintOf g.config.fingerprintParts r)).1 with
    | none => rfl
    | some file =>
      obtain ⟨e, he, hname, hfp, rfl⟩ := StubCache.of_get_eq_some hget
      exact hcache cache rfl e he provider r hname hfp

theorem identifiers_slotsFor (provider : Provider) : ∀ (rs : List StubRequest) {cache? : Option StubCache},
    Holds g.IsNamed cache? →
    ((slotsFor g.config provider cache? rs).1.map (Slot.product provider g.options)).map (·.file.identifier) =
      rs.map fun r => r.target.fileName g.config.outputExtension
  | [], _, _ => rfl
  | r :: rs, cache?, hcache => by
    have hhead := identifier_slotFor provider hcache r
    have hrest : Holds g.IsNamed (slotFor g.config provider cache? r).2 := holds_slotFor hcache
    have htail := identifiers_slotsFor provider rs hrest
    rw [List.map_cons, ← hhead, ← htail]
    rfl

/-- **The files of a pass are named by the types of the requests.** -/
theorem identifiers_of_named (provider : Provider) (disk : Disk) (hcache : g.HasNamedCache) (horder : IsOrder order) :
    (g.generate provider .never order disk).1.files.map (·.identifier) =
      (g.requestsOf provider).map fun r => r.target.fileName g.config.outputExtension := by
  rw [generate_eq.1, produced_never horder, List.map_map, products]
  exact identifiers_slotsFor provider _ hcache

/-- A pass whose files go to a sink has the same files and reports the names that it held back. -/
theorem duplicates_generateInto {σ : Type} (step : SinkStep σ) (sinkOn : Disk → σ) :
    (g.generateInto provider token order disk step sinkOn).1.emission.duplicates =
      heldBack [] ((g.generate provider token order disk).1.files.map (·.identifier)) := emitAll_duplicates _ _

theorem files_generateInto {σ : Type} (step : SinkStep σ) (sinkOn : Disk → σ) :
    (g.generateInto provider token order disk step sinkOn).1.files = (g.generate provider token order disk).1.files := rfl

/-- What a slot makes anew has the name of its type. -/
theorem isNamed_product {slot : Slot} {fingerprint : String}
    (h : (slot.product provider g.options).fingerprint? = some fingerprint) :
    g.IsNamed (.ofFile (slot.product provider g.options).file fingerprint) := by
  cases slot with
  | cached file => cases h
  | pending r _ =>
    intro provider' r' hname _
    exact congrArg (fun name => fileNameOf name g.config.outputExtension) hname

/-- A pass keeps the cache one of named files, whenever it is stopped. -/
theorem HasNamedCache.generate (h : g.HasNamedCache) (horder : IsOrder order) :
    (g.generate provider token order disk).2.1.HasNamedCache := by
  rw [generate_eq.2.2.2]
  intro cache hcache e he
  rcases holds_cacheBehind disk (g.produced provider token order) cache hcache e he with ⟨before, hbefore, he⟩ | hnew
  · exact h before hbefore e he
  · obtain ⟨product, hproduct, hfp, hentry⟩ := hnew
    obtain ⟨slot, -, rfl⟩ := List.mem_map.mp ((produced_sublist horder).subset hproduct)
    have hnamed : g.IsNamed _ := isNamed_product hfp
    rw [← hentry] at hnamed
    exact hnamed

/-- The generators that a configuration leads to: a new one, if the files that can be found in what was read from the
disk have the names of their types, and what passes make of it. -/
inductive ComesOf (c : Config) : Generator → Prop
  | create {disk : Disk} {g : Generator} : Generator.create c disk = .ok g → g.HasNamedCache → ComesOf c g
  | pass {provider : Provider} {token : CancelToken} {order : Nat → List Nat} {disk : Disk} {g : Generator} :
      ComesOf c g → IsOrder order → ComesOf c (g.generate provider token order disk).2.1

theorem create_eq_ok (h : Generator.create c disk = .ok g) : g.config = c ∧
    (c.cache.dir? = none → ∀ cache, g.cache? = some cache → cache = .empty c.cache.capacity none) := by
  rw [Generator.create] at h
  cases hvalid : c.validate with
  | error fault =>
    rw [hvalid] at h
    cases h
  | ok _ =>
    rw [hvalid] at h
    have hbody : (if c.cache.enabled = true then
        ((StubCache.empty c.cache.capacity c.cache.dir?).load disk).bind fun cache => .ok ⟨c, some cache⟩
      else .ok ⟨c, none⟩) = Except.ok g := h
    split at hbody
    next =>
      cases hload : (StubCache.empty c.cache.capacity c.cache.dir?).load disk with
      | error failure =>
        rw [hload] at hbody
        cases hbody
      | ok cache =>
        rw [hload] at hbody
        obtain rfl := Except.ok.inj hbody
        refine ⟨rfl, fun hdir cache' hcache' => ?_⟩
        obtain rfl := Option.some.inj hcache'
        rw [hdir] at hload
        exact (Except.ok.inj hload).symm
    next =>
      obtain rfl := Except.ok.inj hbody
      exact ⟨rfl, fun _ cache hcache => by cases hcache⟩

/-- A new cache in memory has no files, so none with a wrong name. -/
theorem hasNamedCache_create (h : Generator.create c disk = .ok g) (hdir : c.cache.dir? = none) : g.HasNamedCache := by
  intro cache hcache e he
  rw [(create_eq_ok h).2 hdir cache hcache] at he
  cases he

/-- **All generators that a configuration leads to have its settings and a cache of named files.** -/
theorem ComesOf.settings_and_cache (h : ComesOf c g) : g.config = c ∧ g.HasNamedCache := by
  induction h with
  | create hcreate hnamed => exact ⟨(create_eq_ok hcreate).1, hnamed⟩
  | pass _ horder ih =>
    obtain ⟨hconfig, hnamed⟩ := ih
    exact ⟨hconfig, hnamed.generate horder⟩

/-! ## Files of one name -/

/-- What the names of the files of a pass tell, given the sink before and after it. -/
structure NamesFiles {σ : Type} (c : Config) (m : Model) (step : SinkStep σ) (report : PassReport) (before after : σ) :
    Prop where
  /-- The files are named by the types of the requests. -/
  identifiers : report.files.map (·.identifier) =
    ((c.program m).requests c.markerSought).map fun r => r.target.fileName c.outputExtension
  /-- They have different names exactly where no two types differ in the shape of brackets only. -/
  differ : (report.files.map (·.identifier)).Nodup ↔
    ((c.program m).requests c.markerSought).Pairwise fun r s =>
      ¬List.Forall₂ IsAlikeInFiles r.qualifiedName.toList s.qualifiedName.toList
  /-- The report has no duplicates exactly where they have different names. -/
  duplicates : report.emission.duplicates = [] ↔ (report.files.map (·.identifier)).Nodup
  /-- Without duplicates the sink is given all files. -/
  given : report.emission.duplicates = [] → after = report.files.foldl step.give before
  /-- There are none where no square bracket is in a namespace or in a type parameter. -/
  angular : m.HasAngularNames → report.emission.duplicates = []

/-- It is enough to know which names the files have. -/
theorem namesFiles_emitAll {σ : Type} {m : Model} {report : PassReport}
    (hidentifiers : report.files.map (·.identifier) =
      ((c.program m).requests c.markerSought).map fun r => r.target.fileName c.outputExtension)
    (step : SinkStep σ) (before : σ) :
    NamesFiles c m step { report with emission := (emitAll step before report.files).1 } before
      (emitAll step before report.files).2 := by
  have hduplicates : (emitAll step before report.files).1.duplicates = [] ↔
      (report.files.map (·.identifier)).Nodup := emitAll_duplicates_eq_nil_iff before report.files
  constructor
  · exact hidentifiers
  · dsimp only
    rw [hidentifiers]
    exact Program.nodup_fileNames_iff _ _
  · exact hduplicates
  · intro hnone
    have hall : handedOn [] report.files = report.files :=
      handedOn_of_nodup (hduplicates.mp hnone) fun _ _ => List.not_mem_nil
    rw [emitAll_sink, hall]
  · intro hangular
    apply hduplicates.mpr
    rw [hidentifiers]
    have hprogram : (c.program m).model.HasAngularNames := hangular
    exact Program.nodup_fileNames_of_hasAngularNames hprogram _

/-- **The files of a pass have different names unless those of two types differ in the shape of brackets only.** -/
theorem namesFiles {σ : Type} {depth : Nat} {m : Model} (hm : m.IsNumbered) (hg : ComesOf c g) (horder : IsOrder order)
    (disk : Disk) (step : SinkStep σ) (sinkOn : Disk → σ) :
    NamesFiles c m step (g.generateInto (c.providerOf depth m) .never order disk step sinkOn).1
      (sinkOn (g.generate (c.providerOf depth m) .never order disk).2.2)
      (g.generateInto (c.providerOf depth m) .never order disk step sinkOn).2.2 := by
  obtain ⟨rfl, hnamed⟩ := hg.settings_and_cache
  have hrequests : g.requestsOf (g.config.providerOf depth m) = (g.config.program m).requests g.config.markerSought :=
    Program.requests_eq hm
  have hidentifiers := identifiers_of_named (g.config.providerOf depth m) disk hnamed horder
  rw [hrequests] at hidentifiers
  exact namesFiles_emitAll hidentifiers step _

/-! ## Rows of two namespaces -/

/-- Two classes of one name in different namespaces. -/
def rowsIn (first second : String) : Model := .ofList
  [{ Config.wanting "Row" "IRow" with namespaceName? := some first },
    { Config.wanting "Row" "IRow" with namespaceName? := some second }]

theorem create_standard : Generator.create .standard ⟨[], []⟩ = .ok standard :=
  Config.create_of_valid (by decide +kernel) rfl rfl _

theorem comesOf_standard : ComesOf .standard standard :=
  .create create_standard (hasNamedCache_create create_standard rfl)

/-- A pass over rows in two namespaces. -/
def passOver (first second : String) : PassReport × Generator × List (String × String) :=
  standard.generateInto (Config.standard.providerOf 2 (rowsIn first second)) .never inOrder ⟨[], []⟩ listing fun _ => []

/-- Rows in the namespaces `Data<T>` and `Data` have files of different names, and a sink is given both. -/
theorem rows_apart :
    (rowsIn "Data<T>" "Data").IsNumbered ∧ ComesOf .standard standard ∧ IsOrder inOrder ∧
      (rowsIn "Data<T>" "Data").HasAngularNames ∧
      (passOver "Data<T>" "Data").1.files.map (·.identifier) = ["Data[T].Row.g.cs", "Data.Row.g.cs"] ∧
      (passOver "Data<T>" "Data").1.emission.duplicates = [] ∧
      NamesFiles .standard (rowsIn "Data<T>" "Data") listing (passOver "Data<T>" "Data").1 []
        (passOver "Data<T>" "Data").2.2 := by
  have hm : (rowsIn "Data<T>" "Data").IsNumbered := Model.isNumbered_ofList _
  have hangular : (rowsIn "Data<T>" "Data").HasAngularNames := by decide +kernel
  have hnames : NamesFiles .standard (rowsIn "Data<T>" "Data") listing (passOver "Data<T>" "Data").1 []
      (passOver "Data<T>" "Data").2.2 :=
    namesFiles hm comesOf_standard isOrder_inOrder ⟨[], []⟩ listing fun _ => []
  refine ⟨hm, comesOf_standard, isOrder_inOrder, hangular, ?_, hnames.angular hangular, hnames⟩
  rw [hnames.identifiers]
  decide +kernel

/-- Rows in the namespaces `Data<T>` and `Data[T]` have files of one name, and a sink is not given the second. -/
theorem rows_collide :
    Config.standard.validate = .ok () ∧ Generator.create .standard ⟨[], []⟩ = .ok standard ∧
      (passOver "Data<T>" "Data[T]").1.files.map (·.identifier) = ["Data[T].Row.g.cs", "Data[T].Row.g.cs"] ∧
      (passOver "Data<T>" "Data[T]").1.emission.duplicates = ["Data[T].Row.g.cs"] := by
  have hidentifiers := identifiers_of_named (Config.standard.providerOf 2 (rowsIn "Data<T>" "Data[T]")) ⟨[], []⟩
    comesOf_standard.settings_and_cache.2 isOrder_inOrder
  have hnames : ((standard.requestsOf (Config.standard.providerOf 2 (rowsIn "Data<T>" "Data[T]"))).map fun r =>
      r.target.fileName standard.config.outputExtension) = ["Data[T].Row.g.cs", "Data[T].Row.g.cs"] := by decide +kernel
  rw [hnames] at hidentifiers
  refine ⟨by decide +kernel, create_standard, ?_, ?_⟩
  · rw [passOver, files_generateInto, hidentifiers]
  · rw [passOver, duplicates_generateInto, hidentifiers]
    decide +kernel

end Generator

end ContractStubs
