import ContractStubs.Proofs.Pass.Repetition
import ContractStubs.Proofs.Request.Parts
import ContractStubs.Proofs.Samples
import ContractStubs.Proofs.Sink.Account

/-!
# The account of a pass

The numbers of a report come from different stages of a pass: the candidates from the attributes of the declarations,
the dropped ones from the requests that are left, the files from the slots, the rest from the cache and from the sink.
They add up all the same (`Generator.report_adds_up`). A candidate is dropped only if it cannot be used
(`Program.isSome_requestOn?_iff`), grouping the others loses none and counts none twice (`sum_groups`), and each request
that a pass works on has one file, found in the cache or new (`Generator.exists_worked`).
-/

namespace ContractStubs

/-! ## Candidates that are dropped -/

namespace Declaration

/-- The declaration is malformed, or its name or that of a type around it is no identifier. -/
def IsUnusable (d : Declaration) : Prop :=
  d.malformed = true ∨ isIdentifier d.name = false ∨ ∃ c ∈ d.containers, isIdentifier c.name = false

instance (d : Declaration) : Decidable d.IsUnusable :=
  inferInstanceAs (Decidable (d.malformed = true ∨ isIdentifier d.name = false ∨
    ∃ c ∈ d.containers, isIdentifier c.name = false))

end Declaration

namespace Program

variable {p : Program} {marker : Marker} {d : Declaration}

/-- The type of a declaration that takes the marker can be told unless the declaration cannot be used. -/
theorem targetOf?_eq_none_iff (h : d.kind.acceptsMarker = true) : targetOf? d = none ↔ d.IsUnusable := by
  rw [targetOf?, h, Declaration.IsUnusable]
  cases d.malformed <;> cases isIdentifier d.name <;> simp

/-- **A candidate makes a request unless it cannot be used.** Whatever carries the marker has a use of it. -/
theorem isSome_requestOn?_iff : (p.requestOn? marker d).isSome ↔ isCandidate marker d = true ∧ ¬d.IsUnusable := by
  by_cases h : isCandidate marker d = true
  · have hmatch := h
    rw [isCandidate, Bool.and_eq_true] at hmatch
    have huses : p.usesOn marker d ≠ [] := fun hnil => by
      rw [usesOn_eq_nil.mp hnil] at hmatch
      exact Bool.false_ne_true hmatch.2
    rw [requestOn?, if_neg huses, Option.isSome_map, ← targetOf?_eq_none_iff hmatch.1, Option.isSome_iff_ne_none]
    exact (and_iff_right h).symm
  · refine ⟨fun hsome => ?_, fun hcandidate => absurd hcandidate.1 h⟩
    obtain ⟨r, hr⟩ := Option.isSome_iff_exists.mp hsome
    exact absurd (isCandidate_of_requestOn? hr) h

/-- The request of a candidate is made of one declaration and is for the type that is declared. -/
theorem map_requestOn? (p : Program) (marker : Marker) (d : Declaration) :
    (p.requestOn? marker d).map (fun r => (r.declarationCount, r.qualifiedName)) =
      if isCandidate marker d = true ∧ ¬d.IsUnusable then some (1, d.qualifiedName) else none := by
  cases hr : p.requestOn? marker d with
  | none =>
    rw [if_neg]
    · rfl
    · rw [← isSome_requestOn?_iff (p := p), hr]
      exact Bool.false_ne_true
  | some r =>
    have hsome : (p.requestOn? marker d).isSome := Option.isSome_iff_exists.mpr ⟨r, hr⟩
    rw [if_pos (isSome_requestOn?_iff.mp hsome)]
    rw [requestOn?] at hr
    split at hr
    next => cases hr
    next =>
      obtain ⟨target, ht, rfl⟩ := Option.map_eq_some_iff.mp hr
      rw [(of_targetOf?_eq_some ht).2]
      rfl

theorem map_filterMap_requestOn? (p : Program) (marker : Marker) (ds : List Declaration) :
    (ds.filterMap (p.requestOn? marker)).map (fun r => (r.declarationCount, r.qualifiedName)) =
      (ds.filter fun d => isCandidate marker d && !d.IsUnusable).map fun d => (1, d.qualifiedName) := by
  rw [List.map_filterMap, ← List.filterMap_eq_map, List.filterMap_filter]
  refine List.filterMap_congr fun d _ => ?_
  rw [map_requestOn?]
  simp

/-- The requests are made of as many declarations as there are candidates that can be used. -/
theorem sum_requests (p : Program) (marker : Marker) : ((p.requests marker).map (·.declarationCount)).sum =
    p.model.declarations.countP fun d => isCandidate marker d && !d.IsUnusable := by
  have hcounts := congrArg (List.map Prod.fst) (map_filterMap_requestOn? p marker p.model.declarations)
  rw [List.map_map, List.map_map] at hcounts
  have hones : (p.model.declarations.filterMap (p.requestOn? marker)).map (·.declarationCount) = _ := hcounts
  rw [requests, sum_groups, hones, List.countP_eq_length_filter]
  simp [Function.comp_def]

/-- The types of the requests come in the order of the first candidates that can be used. -/
theorem map_qualifiedName_requests (p : Program) (marker : Marker) : (p.requests marker).map (·.qualifiedName) =
    firstOnly [] ((p.model.declarations.filter fun d => isCandidate marker d && !d.IsUnusable).map
      Declaration.qualifiedName) := by
  have hnames := congrArg (List.map Prod.snd) (map_filterMap_requestOn? p marker p.model.declarations)
  rw [List.map_map, List.map_map] at hnames
  rw [requests, map_qualifiedName_groups]
  exact congrArg (firstOnly []) hnames

end Program

/-! ## Requests that are worked on -/

namespace Generator

variable {g : Generator} {provider : Provider} {token : CancelToken} {order : Nat → List Nat} {disk : Disk}
  {cache? : Option StubCache} {r : StubRequest} {depth : Nat} {m : Model}

/-- The file that a cache holds for a request: for its type, and made from the same. -/
def fileIn? (g : Generator) (provider : Provider) (cache? : Option StubCache) (r : StubRequest) : Option StubFile :=
  cache?.bind fun cache => (cache.get r.qualifiedName (g.fingerprintOf provider r)).1

/-- What comes of a request: the file that the cache holds, or else a new one. -/
def productWith (g : Generator) (provider : Provider) (cache? : Option StubCache) (r : StubRequest) : Product :=
  match g.fileIn? provider cache? r with
  | some file => ⟨file, none⟩
  | none => ⟨g.fileOf provider r, some (g.fingerprintOf provider r)⟩

theorem product_slotFor : (slotFor g.config provider cache? r).1.product provider g.options =
    g.productWith provider cache? r := by
  cases cache? with
  | none => rfl
  | some cache =>
    rw [slotFor, productWith]
    change Slot.product _ _ ((g.fileIn? provider (some cache) r).elim _ _) = _
    cases g.fileIn? provider (some cache) r <;> rfl

theorem productWith_slotFor {s : StubRequest} (h : s.qualifiedName ≠ r.qualifiedName) :
    g.productWith provider (slotFor g.config provider cache? r).2 s = g.productWith provider cache? s := by
  cases cache? with
  | none => rfl
  | some cache =>
    have hfile : g.fileIn? provider (slotFor g.config provider (some cache) r).2 s =
        g.fileIn? provider (some cache) s := StubCache.get_get_of_ne h _
    rw [productWith, productWith, hfile]

/-- Requests for different types do not disturb each other when they are looked up. -/
theorem products_slotsFor : ∀ {rs : List StubRequest} {cache? : Option StubCache}, (rs.map (·.qualifiedName)).Nodup →
    (slotsFor g.config provider cache? rs).1.map (Slot.product provider g.options) =
      rs.map (g.productWith provider cache?)
  | [], _, _ => rfl
  | r :: rs, cache?, hnodup => by
    obtain ⟨hr, hrs⟩ := List.nodup_cons.mp hnodup
    have hrest : rs.map (g.productWith provider (slotFor g.config provider cache? r).2) =
        rs.map (g.productWith provider cache?) :=
      List.map_congr_left fun s hs => productWith_slotFor fun hname => hr (List.mem_map.mpr ⟨s, hs, hname⟩)
    rw [List.map_cons, ← hrest, ← products_slotsFor hrs, ← product_slotFor]
    rfl

/-- What comes of all requests is what the cache held at the start of the pass, and new files for the others. -/
theorem products_eq_map (g : Generator) (provider : Provider) :
    g.products provider = (g.requestsOf provider).map (g.productWith provider g.cache?) :=
  products_slotsFor (nodup_requestsOf g provider)

/-- **A pass works on some of its requests in their order, and on all of them if it is not told to stop.** -/
theorem exists_worked (g : Generator) (provider : Provider) (hsticky : token.IsSticky) (horder : IsOrder order) :
    ∃ worked : List StubRequest, worked.Sublist (g.requestsOf provider) ∧
      (token (g.lastProgress provider token order) = false → worked = g.requestsOf provider) ∧
      g.produced provider token order = worked.map (g.productWith provider g.cache?) := by
  by_cases hend : token (g.lastProgress provider token order) = false
  · refine ⟨g.requestsOf provider, .refl _, fun _ => rfl, ?_⟩
    rw [produced_of_not_cancelled hsticky horder hend, products_eq_map]
  · have hsub : (g.produced provider token order).Sublist (g.products provider) := produced_sublist horder
    rw [products_eq_map] at hsub
    obtain ⟨worked, hworked, hproduced⟩ := List.sublist_map_iff.mp hsub
    exact ⟨worked, hworked, fun hnot => absurd hnot hend, hproduced⟩

/-- The requests that a pass worked on, and what its report has of them. -/
structure WorkedOn (g : Generator) (provider : Provider) (report : PassReport) (worked : List StubRequest) : Prop where
  sublist : worked.Sublist (g.requestsOf provider)
  all : report.cancelled = false → worked = g.requestsOf provider
  /-- There is one file for each of them, the one that the cache held or else a new one. -/
  files : report.files = worked.map fun r => (g.fileIn? provider g.cache? r).getD (g.fileOf provider r)
  /-- It is named for the type of the request, unless the cache held a file under the name of another type. -/
  names : Holds (fun e => e.file.typeName = e.typeName) g.cache? →
    report.files.map (·.typeName) = worked.map (·.qualifiedName)
  hits : report.cacheHits = worked.countP fun r => (g.fileIn? provider g.cache? r).isSome
  /-- What was not found is new. -/
  fresh : report.cacheHits + worked.countP (fun r => (g.fileIn? provider g.cache? r).isNone) = report.files.length

theorem workedOn_generate (g : Generator) (provider : Provider) (hsticky : token.IsSticky) (horder : IsOrder order)
    (disk : Disk) : ∃ worked, g.WorkedOn provider (g.generate provider token order disk).1 worked := by
  obtain ⟨worked, hsub, hall, hproduced⟩ := exists_worked g provider hsticky horder
  have hfiles : (g.generate provider token order disk).1.files =
      worked.map fun r => (g.fileIn? provider g.cache? r).getD (g.fileOf provider r) := by
    rw [generate_eq.1, hproduced, List.map_map]
    refine List.map_congr_left fun r _ => ?_
    rw [Function.comp_apply, productWith]
    cases g.fileIn? provider g.cache? r <;> rfl
  have hhits : (g.generate provider token order disk).1.cacheHits =
      worked.countP fun r => (g.fileIn? provider g.cache? r).isSome := by
    rw [generate_eq.2.1, hproduced, List.countP_map]
    refine List.countP_congr fun r _ => ?_
    rw [Function.comp_apply, productWith]
    cases g.fileIn? provider g.cache? r <;> simp
  refine ⟨worked, hsub, hall, hfiles, fun hown => ?_, hhits, ?_⟩
  · rw [hfiles, List.map_map]
    refine List.map_congr_left fun r _ => ?_
    rw [Function.comp_apply]
    cases hfile : g.fileIn? provider g.cache? r with
    | none => rfl
    | some file =>
      obtain ⟨cache, hcache, hget⟩ := Option.bind_eq_some_iff.mp hfile
      obtain ⟨e, he, hname, -, rfl⟩ := StubCache.of_get_eq_some hget
      exact (hown cache hcache e he).trans hname
  · rw [hhits, hfiles, List.length_map,
      List.length_eq_countP_add_countP fun r => (g.fileIn? provider g.cache? r).isSome]
    exact congrArg _ (List.countP_congr fun r _ => by simp)

/-! ## The account -/

/-- The numbers in the report of a pass over a model add up. -/
structure AddsUp (g : Generator) (depth : Nat) (m : Model) (report : PassReport) : Prop where
  candidates : report.candidates = m.declarations.countP (isCandidate g.config.markerSought)
  /-- Each candidate is dropped or is a declaration of one of the types. -/
  kept : report.candidates = report.dropped +
    ((g.requestsOf (g.config.providerOf depth m)).map (·.target.declarations.length)).sum
  /-- Those are dropped that are malformed or have, or stand in a type that has, a name that is no identifier. -/
  dropped : report.dropped =
    m.declarations.countP fun d => isCandidate g.config.markerSought d && decide d.IsUnusable
  /-- The types come in the order of their first declarations that are not dropped. -/
  types : (g.requestsOf (g.config.providerOf depth m)).map (·.qualifiedName) =
    firstOnly [] ((m.declarations.filter fun d =>
      isCandidate g.config.markerSought d && !d.IsUnusable).map Declaration.qualifiedName)
  /-- Each type that was worked on has one file. -/
  worked : ∃ worked, g.WorkedOn (g.config.providerOf depth m) report worked
  /-- Each file was taken by the sink, refused by it or held back. -/
  emission : report.emission.emitted.length + report.emission.duplicates.length + report.emission.refused.length =
    report.files.length

/-- What a pass counts before it works on anything. -/
theorem counts_generate (g : Generator) (depth : Nat) (hm : m.IsNumbered) (token : CancelToken)
    (order : Nat → List Nat) (disk : Disk) :
    (g.generate (g.config.providerOf depth m) token order disk).1.candidates =
        m.declarations.countP (isCandidate g.config.markerSought) ∧
      (g.generate (g.config.providerOf depth m) token order disk).1.dropped =
        m.declarations.countP (isCandidate g.config.markerSought) -
          ((g.requestsOf (g.config.providerOf depth m)).map (·.declarationCount)).sum := by
  have hids : (g.config.providerOf depth m).candidates g.config.markerSought =
      (m.declarations.filter (isCandidate g.config.markerSought)).map (·.id) :=
    Program.candidates_eq (p := g.config.program m) hm
  have hcount : ((g.config.providerOf depth m).candidates g.config.markerSought).length =
      m.declarations.countP (isCandidate g.config.markerSought) := by
    rw [hids, List.length_map, List.countP_eq_length_filter]
  have hkept : (g.requestsOf (g.config.providerOf depth m)).foldl (fun n r => n + r.target.declarations.length) 0 =
      ((g.requestsOf (g.config.providerOf depth m)).map (·.declarationCount)).sum := by
    rw [List.sum_eq_foldl, List.foldl_map]
    rfl
  refine ⟨hcount, ?_⟩
  rw [← hcount, ← hkept]
  rfl

/-- **Every report of a pass adds up**, whatever the cache holds and whenever the pass is stopped. -/
theorem report_adds_up {σ : Type} (g : Generator) (depth : Nat) (hm : m.IsNumbered) (hsticky : token.IsSticky)
    (horder : IsOrder order) (disk : Disk) (step : SinkStep σ) (sinkOn : Disk → σ) :
    g.AddsUp depth m (g.generateInto (g.config.providerOf depth m) token order disk step sinkOn).1 := by
  obtain ⟨hcandidates, hdropped⟩ := counts_generate g depth hm token order disk
  have hrequests : g.requestsOf (g.config.providerOf depth m) = (g.config.program m).requests g.config.markerSought :=
    Program.requests_eq hm
  have hsum : ((g.requestsOf (g.config.providerOf depth m)).map (·.declarationCount)).sum =
      m.declarations.countP fun d => isCandidate g.config.markerSought d && !d.IsUnusable := by
    rw [hrequests]
    exact Program.sum_requests (g.config.program m) g.config.markerSought
  -- the candidates are those that cannot be used and those that can
  have hsplit : m.declarations.countP (isCandidate g.config.markerSought) =
      m.declarations.countP (fun d => isCandidate g.config.markerSought d && decide d.IsUnusable) +
        m.declarations.countP fun d => isCandidate g.config.markerSought d && !d.IsUnusable := by
    rw [List.countP_eq_countP_filter_add _ _ fun d : Declaration => decide d.IsUnusable, List.countP_filter,
      List.countP_filter]
  rw [hsum, hsplit, Nat.add_sub_cancel] at hdropped
  refine ⟨hcandidates, ?_, hdropped, ?_, ?_, ?_⟩
  · refine hcandidates.trans ?_
    rw [hsplit, ← hsum, ← hdropped]
    rfl
  · rw [hrequests]
    exact Program.map_qualifiedName_requests (g.config.program m) g.config.markerSought
  · obtain ⟨worked, h⟩ := workedOn_generate g (g.config.providerOf depth m) hsticky horder disk
    exact ⟨worked, h.sublist, h.all, h.files, h.names, h.hits, h.fresh⟩
  · have haccount := accountsFor_callsFor step
      (sinkOn (g.generate (g.config.providerOf depth m) token order disk).2.2)
      (g.generate (g.config.providerOf depth m) token order disk).1.files
    rw [Nat.add_right_comm]
    exact haccount.length_eq

/-- A class in two parts and another one, between classes that cannot be used. -/
def brokenBetween : Model := .ofList [Program.interfaceNamed none "IJob", Config.wanting "First" "IJob",
  { Config.wanting "Broken" "IJob" with malformed := true }, Config.wanting "Second" "IJob",
  { Config.wanting "Inner" "IJob" with containers := [⟨"9", .classType, []⟩] }, Config.wanting "First" "IJob"]

/-- The report of a pass that is stopped after the first class. -/
theorem stopped_report_adds_up :
    let report := (standard.generateInto (Config.standard.providerOf 2 brokenBetween) (.afterQueries 1) inOrder ⟨[], []⟩
      listing fun _ => []).1
    brokenBetween.IsNumbered ∧ (CancelToken.afterQueries 1).IsSticky ∧ IsOrder inOrder ∧ report.candidates = 5 ∧
      report.dropped = 2 ∧ (standard.requestsOf (Config.standard.providerOf 2 brokenBetween)).map
        (fun r => (r.qualifiedName, r.target.declarations)) = [("First", [1, 5]), ("Second", [3])] ∧
      standard.AddsUp 2 brokenBetween report := by
  intro report
  have hsticky : (CancelToken.afterQueries 1).IsSticky := CancelToken.isSticky_afterQueries 1
  have hadds : standard.AddsUp 2 brokenBetween report :=
    report_adds_up standard 2 (Model.isNumbered_ofList _) hsticky isOrder_inOrder ⟨[], []⟩ listing fun _ => []
  refine ⟨Model.isNumbered_ofList _, hsticky, isOrder_inOrder, ?_, ?_, by decide +kernel, hadds⟩
  · rw [hadds.candidates]
    decide +kernel
  · rw [hadds.dropped]
    decide +kernel

end Generator

end ContractStubs
