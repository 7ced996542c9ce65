import ContractStubs.Proofs.Lists
import ContractStubs.Proofs.Pass.Cancellation
import ContractStubs.Proofs.Request.Grouping
import ContractStubs.Proofs.Samples

/-!
# Passes over one program

A generator whose cache starts empty passes over one program again and again. Its entries are always those of requests
of the program (`Generator.IsFilled`), so a request is found exactly if its type is in the cache. A pass, stopped or
not, takes no entry away without putting another one in its place, and after a pass that was not stopped the cache is as
full as it can be (`Generator.step_isFilled`). From then on as many files come from the cache as it can hold.
-/

namespace ContractStubs

namespace Generator

variable {g : Generator} {provider : Provider} {token : CancelToken} {order : Nat → List Nat} {disk : Disk}
  {cache looked : StubCache} {r : StubRequest} {rs : List StubRequest}

theorem nodup_requestsOf (g : Generator) (provider : Provider) :
    ((g.requestsOf provider).map (·.qualifiedName)).Nodup := by
  rw [requestsOf, Provider.requests_eq_groups]
  exact nodup_groups _

/-- The entry for a request. -/
def entryOf (g : Generator) (provider : Provider) (r : StubRequest) : CacheEntry :=
  .ofFile (g.fileOf provider r) (g.fingerprintOf provider r)

/-- The cache has entries for some of the requests, and no other ones. -/
structure IsFilled (g : Generator) (provider : Provider) (cache : StubCache) : Prop where
  proper : cache.IsProper
  dir? : cache.dir? = none
  made : ∀ e ∈ cache.entries, ∃ r ∈ g.requestsOf provider, e = g.entryOf provider r

theorem isFilled_empty (capacity : Nat) : g.IsFilled provider (.empty capacity none) :=
  ⟨StubCache.isProper_empty _ _, rfl, fun _ he => by cases he⟩

theorem IsFilled.of_perm (h : g.IsFilled provider cache) (hperm : looked.entries.Perm cache.entries)
    (hcapacity : looked.capacity = cache.capacity) (hdir : looked.dir? = cache.dir?) : g.IsFilled provider looked :=
  ⟨h.proper.of_perm hperm hcapacity, hdir.trans h.dir?, fun e he => h.made e (hperm.mem_iff.mp he)⟩

/-- An entry for the type of a request is the entry for that request. -/
theorem IsFilled.eq_entryOf (h : g.IsFilled provider cache) (hr : r ∈ g.requestsOf provider) {e : CacheEntry}
    (he : e ∈ cache.entries) (hname : e.typeName = r.qualifiedName) : e = g.entryOf provider r := by
  obtain ⟨s, hs, rfl⟩ := h.made e he
  have hsame : s = r := List.inj_on_of_nodup_map (nodup_requestsOf g provider) hs hr hname
  rw [hsame]

/-- As many requests are for types in the cache as the cache has entries. -/
theorem IsFilled.countP_eq_size (h : g.IsFilled provider cache) :
    (g.requestsOf provider).countP (fun r => r.qualifiedName ∈ cache.names) = cache.size := by
  have hsub : ∀ name ∈ cache.names, name ∈ (g.requestsOf provider).map (·.qualifiedName) := by
    intro name hname
    obtain ⟨e, he, rfl⟩ := StubCache.mem_names.mp hname
    obtain ⟨r, hr, rfl⟩ := h.made e he
    exact List.mem_map.mpr ⟨r, hr, rfl⟩
  have hcount := countP_mem_eq_length (nodup_requestsOf g provider) h.proper.names hsub
  rw [List.countP_map, StubCache.names, List.length_map] at hcount
  exact hcount

theorem IsFilled.size_le (h : g.IsFilled provider cache) :
    cache.size ≤ min (g.requestsOf provider).length cache.capacity := by
  refine Nat.le_min.mpr ⟨?_, h.proper.room⟩
  rw [← h.countP_eq_size]
  exact List.countP_le_length

/-- The cache has as many entries as there are requests, or as there is room for. -/
def IsFull (g : Generator) (provider : Provider) (cache : StubCache) : Prop :=
  cache.size = min (g.requestsOf provider).length cache.capacity

theorem IsFull.of_size_le (h : g.IsFull provider cache) {after : StubCache} (hfilled : g.IsFilled provider after)
    (hcapacity : after.capacity = cache.capacity) (hgrows : cache.size ≤ after.size) : g.IsFull provider after := by
  have hbound := hfilled.size_le
  rw [IsFull] at h ⊢
  omega

/-! ## The slots of a pass -/

/-- The slot of a request: its file if the cache has an entry for the type. -/
def slotIn (g : Generator) (provider : Provider) (cache : StubCache) (r : StubRequest) : Slot :=
  if r.qualifiedName ∈ cache.names then .cached (g.fileOf provider r) else .pending r (g.fingerprintOf provider r)

theorem slotFor_eq (h : g.IsFilled provider cache) (hr : r ∈ g.requestsOf provider) :
    slotFor g.config provider (some cache) r =
      (g.slotIn provider cache r, some (cache.get r.qualifiedName (g.fingerprintOf provider r)).2) := by
  have hget : (cache.get r.qualifiedName (g.fingerprintOf provider r)).1 =
      if r.qualifiedName ∈ cache.names then some (g.fileOf provider r) else none := by
    by_cases hname : r.qualifiedName ∈ cache.names
    · obtain ⟨e, he, htype⟩ := StubCache.mem_names.mp hname
      have hentry : e = g.entryOf provider r := h.eq_entryOf hr he htype
      rw [if_pos hname]
      exact h.proper.get_eq_some (hentry ▸ he)
    · rw [if_neg hname, StubCache.get_eq_none hname]
  rw [slotFor, slotIn]
  refine Prod.ext ?_ rfl
  change (cache.get r.qualifiedName (g.fingerprintOf provider r)).1.elim _ _ = _
  rw [hget]
  split <;> rfl

/-- Looking the requests up moves entries only, so each is found if it would have been found at first. -/
theorem slotsFor_eq : ∀ {rs : List StubRequest} {cache : StubCache}, g.IsFilled provider cache →
    (∀ r ∈ rs, r ∈ g.requestsOf provider) →
      ∃ looked, slotsFor g.config provider (some cache) rs = (rs.map (g.slotIn provider cache), some looked) ∧
        looked.entries.Perm cache.entries ∧ looked.capacity = cache.capacity ∧ looked.dir? = cache.dir?
  | [], cache, _, _ => ⟨cache, rfl, .refl _, rfl, rfl⟩
  | r :: rs, cache, h, hrs => by
    obtain ⟨hr, hrs⟩ := List.forall_mem_cons.mp hrs
    have hperm := h.proper.perm_get r.qualifiedName (g.fingerprintOf provider r)
    have hcapacity := cache.get_capacity r.qualifiedName (g.fingerprintOf provider r)
    have hdir := cache.get_dir? r.qualifiedName (g.fingerprintOf provider r)
    have hnext := h.of_perm hperm hcapacity hdir
    rw [slotsFor, slotFor_eq h hr]
    generalize (cache.get r.qualifiedName (g.fingerprintOf provider r)).2 = next at hperm hcapacity hdir hnext ⊢
    obtain ⟨looked, hslots, hperm', hcapacity', hdir'⟩ := slotsFor_eq hnext hrs
    have hsame : g.slotIn provider next = g.slotIn provider cache := by
      funext s
      have hnames : s.qualifiedName ∈ next.names ↔ s.qualifiedName ∈ cache.names := (hperm.map _).mem_iff
      rw [slotIn, slotIn, if_congr hnames rfl rfl]
    refine ⟨looked, ?_, hperm'.trans hperm, hcapacity'.trans hcapacity, hdir'.trans hdir⟩
    dsimp only
    rw [hslots, hsame, List.map_cons]

/-- What comes of a request whose type is in the cache or not. -/
def productIn (g : Generator) (provider : Provider) (cache : StubCache) (r : StubRequest) : Product :=
  ⟨g.fileOf provider r, if r.qualifiedName ∈ cache.names then none else some (g.fingerprintOf provider r)⟩

theorem product_slotIn : (g.slotIn provider cache r).product provider g.options = g.productIn provider cache r := by
  rw [slotIn, productIn]
  split <;> rfl

/-! ## The cache behind a pass -/

/-- The entries for new products. -/
def newEntries (products : List Product) : List CacheEntry :=
  products.filterMap fun product => product.fingerprint?.map (.ofFile product.file)

/-- Without a directory the new products are put into the cache. -/
theorem foldl_remember : ∀ (products : List Product) {cache : StubCache}, cache.dir? = none →
    (products.foldl (fun (cache?, disk) p => remember cache? disk p) (some cache, disk)).1 =
      some ((newEntries products).foldl StubCache.put cache)
  | [], _, _ => rfl
  | product :: products, cache, hdir => by
    change (products.foldl _ (remember (some cache) disk product)).1 = _
    cases hfp : product.fingerprint? with
    | none =>
      have hsame : remember (some cache) disk product = (some cache, disk) := by simp only [remember, hfp]
      have hnew : newEntries (product :: products) = newEntries products := by simp [newEntries, hfp]
      rw [hsame, hnew]
      exact foldl_remember products hdir
    | some fingerprint =>
      have hput : remember (some cache) disk product = (some (cache.put (.ofFile product.file fingerprint)), disk) := by
        simp only [remember, hfp, StubCache.insert_of_no_dir hdir]
      have hnew : newEntries (product :: products) = .ofFile product.file fingerprint :: newEntries products := by
        simp [newEntries, hfp]
      rw [hput, hnew]
      exact foldl_remember products hdir

theorem newEntries_map_productIn (rs : List StubRequest) : newEntries (rs.map (g.productIn provider cache)) =
    (rs.filter fun r => r.qualifiedName ∉ cache.names).map (g.entryOf provider) := by
  rw [newEntries, List.filterMap_map, ← List.filterMap_eq_filter, List.map_filterMap]
  refine List.filterMap_congr fun r _ => ?_
  by_cases hname : r.qualifiedName ∈ cache.names <;> simp [productIn, hname, entryOf]

/-- New entries are for types that are not in the cache. -/
theorem areNewIn_newEntries (hperm : looked.entries.Perm cache.entries) {products : List Product}
    (hsub : products.Sublist ((g.requestsOf provider).map (g.productIn provider cache))) :
    looked.AreNewIn (newEntries products) := by
  have hentries : (newEntries products).Sublist
      (((g.requestsOf provider).filter fun r => r.qualifiedName ∉ cache.names).map (g.entryOf provider)) := by
    rw [← newEntries_map_productIn]
    exact hsub.filterMap _
  refine ⟨?_, fun e he hname => ?_⟩
  · have hnodup : (((g.requestsOf provider).filter fun r => r.qualifiedName ∉ cache.names).map
        (·.qualifiedName)).Nodup := (nodup_requestsOf g provider).sublist (List.filter_sublist.map _)
    refine List.Nodup.sublist (hentries.map _) ?_
    rw [List.map_map]
    exact hnodup
  · obtain ⟨r, hr, rfl⟩ := List.mem_map.mp (hentries.subset he)
    have hnot : r.qualifiedName ∉ cache.names := of_decide_eq_true (List.mem_filter.mp hr).2
    exact hnot ((hperm.map _).mem_iff.mp hname)

/-- The requests are those for types in the cache and the others. -/
theorem IsFilled.size_add_newEntries (h : g.IsFilled provider cache) :
    cache.size + (newEntries ((g.requestsOf provider).map (g.productIn provider cache))).length =
      (g.requestsOf provider).length := by
  rw [newEntries_map_productIn, List.length_map, ← List.countP_eq_length_filter, ← h.countP_eq_size]
  rw [List.length_eq_countP_add_countP fun r : StubRequest => decide (r.qualifiedName ∈ cache.names)]
  simp only [decide_eq_true_eq, decide_not]

theorem products_eq (h : g.IsFilled provider cache) (hcache : g.cache? = some cache) :
    g.products provider = (g.requestsOf provider).map (g.productIn provider cache) := by
  obtain ⟨looked, hslots, -⟩ := slotsFor_eq h fun r (hr : r ∈ g.requestsOf provider) => hr
  rw [products, slotsOf, hcache, hslots, List.map_map]
  exact List.map_congr_left fun r _ => product_slotIn

/-- The cache behind a pass: new products are put where the requests were looked up. -/
theorem exists_cacheBehind (h : g.IsFilled provider cache) (hcache : g.cache? = some cache) (disk : Disk)
    (products : List Product) :
    ∃ looked, looked.entries.Perm cache.entries ∧ looked.capacity = cache.capacity ∧ g.IsFilled provider looked ∧
      g.cacheBehind provider disk products = some ((newEntries products).foldl StubCache.put looked) := by
  obtain ⟨looked, hslots, hperm, hcapacity, hdir⟩ := slotsFor_eq h fun r (hr : r ∈ g.requestsOf provider) => hr
  have hlooked := h.of_perm hperm hcapacity hdir
  refine ⟨looked, hperm, hcapacity, hlooked, ?_⟩
  rw [cacheBehind, hcache, hslots]
  exact foldl_remember _ hlooked.dir?

/-- The entry for a new product is the entry for its request. -/
theorem eq_entryOf_of_isNewFrom {products : List Product} {e : CacheEntry}
    (hsub : products ⊆ (g.requestsOf provider).map (g.productIn provider cache)) (h : IsNewFrom products e) :
    ∃ r ∈ g.requestsOf provider, e = g.entryOf provider r := by
  obtain ⟨product, hproduct, hfp, hentry⟩ := h
  obtain ⟨r, hr, rfl⟩ := List.mem_map.mp (hsub hproduct)
  refine ⟨r, hr, ?_⟩
  rw [productIn] at hfp
  split at hfp
  · cases hfp
  · rw [hentry, ← Option.some.inj hfp]
    rfl

/-- As many products come from the cache as that has entries. -/
theorem IsFilled.countP_cached (h : g.IsFilled provider cache) :
    ((g.requestsOf provider).map (g.productIn provider cache)).countP (·.fingerprint?.isNone) = cache.size := by
  rw [List.countP_map, ← h.countP_eq_size]
  refine List.countP_congr fun r _ => ?_
  by_cases hname : r.qualifiedName ∈ cache.names <;> simp [productIn, hname]

/-- **A pass keeps the cache filled, and fuller than before.** If it is not told to stop, it has the files of all
requests, as many from the cache as that had entries, and leaves as many entries as there is room for. -/
theorem step_isFilled (disk : Disk) (h : g.IsFilled provider cache) (hcache : g.cache? = some cache)
    (hsticky : token.IsSticky) (horder : IsOrder order) :
    ∃ after, (g.generate provider token order disk).2.1 = { g with cache? := some after } ∧
      g.IsFilled provider after ∧ after.capacity = cache.capacity ∧ cache.size ≤ after.size ∧
      ((g.generate provider token order disk).1.cancelled = false →
        (g.generate provider token order disk).1.files = (g.requestsOf provider).map (g.fileOf provider) ∧
          (g.generate provider token order disk).1.cacheHits = cache.size ∧ g.IsFull provider after) := by
  have hproducts := products_eq h hcache
  have hsub : (g.produced provider token order).Sublist
      ((g.requestsOf provider).map (g.productIn provider cache)) := hproducts ▸ produced_sublist horder
  obtain ⟨looked, hperm, hcapacity, hlooked, hbehind⟩ :=
    exists_cacheBehind h hcache disk (g.produced provider token order)
  have hnew := areNewIn_newEntries hperm hsub
  have hsize := hlooked.proper.size_foldl_put hnew
  have hsame : looked.size = cache.size := hperm.length_eq
  rw [hsame, hcapacity] at hsize
  have hfilled : g.IsFilled provider ((newEntries (g.produced provider token order)).foldl StubCache.put looked) := by
    refine ⟨hlooked.proper.foldl_put hnew, ?_, fun e he => ?_⟩
    · rw [StubCache.dir?_foldl_put, hlooked.dir?]
    · rcases holds_cacheBehind disk (g.produced provider token order) _ hbehind e he with ⟨before, hbefore, he⟩ | hentry
      · rw [hcache] at hbefore
        cases hbefore
        exact h.made e he
      · exact eq_entryOf_of_isNewFrom hsub.subset hentry
  refine ⟨_, by rw [generate_eq.2.2.2, hbehind], hfilled, ?_, ?_, fun hend => ?_⟩
  · rw [StubCache.capacity_foldl_put, hcapacity]
  · have hroom := h.proper.room
    omega
  · have hall : g.produced provider token order = g.products provider :=
      produced_of_not_cancelled hsticky horder hend
    refine ⟨?_, ?_, ?_⟩
    · rw [generate_eq.1, hall, hproducts, List.map_map]
      rfl
    · rw [generate_eq.2.1, hall, hproducts, h.countP_cached]
    · rw [IsFull, StubCache.capacity_foldl_put, hcapacity, hsize, hall, hproducts, h.size_add_newEntries]

/-! ## Any number of passes -/

/-- The passes over one program, each with its token and the order in which its slots are reached. -/
def passesOn (provider : Provider) (passes : List (CancelToken × (Nat → List Nat))) : List Pass :=
  passes.map fun pass => ⟨provider, pass.1, pass.2⟩

/-- **A pass that is not told to stop has the files of all requests, and as many come from the cache as it can hold** if
it was as full as it can be at first or became so through an earlier such pass. -/
theorem run_isFilled : ∀ {passes : List (CancelToken × (Nat → List Nat))} {g : Generator} {cache : StubCache}
    {disk : Disk},
    (∀ pass ∈ passes, pass.1.IsSticky ∧ IsOrder pass.2) → g.cache? = some cache → g.IsFilled provider cache →
      ∀ {earlier later : List PassReport} {report : PassReport},
        g.run disk (passesOn provider passes) = earlier ++ report :: later → report.cancelled = false →
          report.files = (g.requestsOf provider).map (g.fileOf provider) ∧
            ((g.IsFull provider cache ∨ ∃ before ∈ earlier, before.cancelled = false) →
              report.cacheHits = min (g.requestsOf provider).length cache.capacity)
  | [], g, cache, disk, _, _, _, earlier, later, report, hrun, _ => by
    have hlength := congrArg List.length hrun
    simp [run, passesOn] at hlength
  | (token, order) :: passes, g, cache, disk, hpasses, hcache, h, earlier, later, report, hrun, hend => by
    obtain ⟨⟨hsticky, horder⟩, hpasses⟩ := List.forall_mem_cons.mp hpasses
    obtain ⟨after, hnext, hfilled, hcapacity, hgrows, hall⟩ :=
      step_isFilled disk h hcache hsticky horder
    rw [passesOn, List.map_cons, run_cons] at hrun
    dsimp only at hrun
    cases earlier with
    | nil =>
      obtain ⟨rfl, -⟩ := List.cons.inj hrun
      obtain ⟨hfiles, hhits, -⟩ := hall hend
      refine ⟨hfiles, ?_⟩
      rintro (hfull | ⟨before, hbefore, -⟩)
      · rw [hhits, hfull]
      · cases hbefore
    | cons first earlier =>
      obtain ⟨rfl, hrest⟩ := List.cons.inj hrun
      rw [hnext] at hrest
      have hkept : (⟨g.config, some after⟩ : Generator).IsFilled provider after :=
        ⟨hfilled.proper, hfilled.dir?, hfilled.made⟩
      obtain ⟨hfiles, hhits⟩ := run_isFilled hpasses rfl hkept hrest hend
      rw [hcapacity] at hhits
      refine ⟨hfiles, fun hfull => hhits ?_⟩
      rcases hfull with hfull | ⟨before, hbefore, hcompleted⟩
      · exact .inl (hfull.of_size_le hfilled hcapacity hgrows)
      · rcases List.mem_cons.mp hbefore with rfl | hbefore
        · exact .inl (hall hcompleted).2.2
        · exact .inr ⟨before, hbefore, hcompleted⟩

end Generator

namespace Config

/-- The configuration with no cache. -/
def withoutCache (c : Config) : Config := { c with cache := { c.cache with enabled := false } }

variable {c : Config} {passes : List (CancelToken × (Nat → List Nat))}

theorem create_of_valid (hvalid : c.validate = .ok ()) (henabled : c.cache.enabled = true) (hdir : c.cache.dir? = none)
    (disk : Disk) : Generator.create c disk = .ok ⟨c, some (.empty c.cache.capacity none)⟩ := by
  rw [Generator.create, hvalid, hdir]
  simp only [henabled, if_true]
  rfl

theorem capacity_of_valid (hvalid : c.validate = .ok ()) (henabled : c.cache.enabled = true) :
    0 < c.cache.capacity := by
  rw [Nat.pos_iff_ne_zero]
  intro hzero
  rw [validate, henabled, hzero] at hvalid
  split at hvalid
  · cases hvalid
  · split at hvalid <;> cases hvalid

theorem validate_withoutCache (hvalid : c.validate = .ok ()) : c.withoutCache.validate = .ok () := by
  rw [validate] at hvalid ⊢
  simp only [withoutCache, Bool.false_and, Bool.false_eq_true, if_false]
  split at hvalid
  · cases hvalid
  next hmarker =>
    rw [if_neg hmarker]
    split at hvalid
    · cases hvalid
    next hextension => rw [if_neg hextension]

theorem create_withoutCache (hvalid : c.validate = .ok ()) (disk : Disk) :
    Generator.create c.withoutCache disk = .ok ⟨c.withoutCache, none⟩ := by
  rw [Generator.create, validate_withoutCache hvalid]
  rfl

/-- **Passes over one program are stable and use again what the cache can hold.** The generator of a valid configuration
with a cache in memory passes over a program any number of times, and any of the passes is stopped at any moment. Each
pass that is not stopped has the files that a generator without a cache makes, and if another one came before it, as
many come from the cache as there are requests, or as there is room for. -/
theorem passes_are_stable (provider : Provider) (hvalid : c.validate = .ok ()) (henabled : c.cache.enabled = true)
    (hdir : c.cache.dir? = none) (hpasses : ∀ pass ∈ passes, pass.1.IsSticky ∧ IsOrder pass.2) (disk : Disk) :
    ∃ g plain, Generator.create c disk = .ok g ∧ Generator.create c.withoutCache disk = .ok plain ∧
      ∀ earlier report later,
        g.run disk (Generator.passesOn provider passes) = earlier ++ report :: later → report.cancelled = false →
          report.files = (plain.generate provider .never Generator.inOrder disk).1.files ∧
            ((∃ before ∈ earlier, before.cancelled = false) →
              report.cacheHits = min (plain.requestsOf provider).length c.cache.capacity) := by
  refine ⟨_, _, create_of_valid hvalid henabled hdir disk, create_withoutCache hvalid disk, ?_⟩
  intro earlier report later hrun hend
  obtain ⟨hfiles, hhits⟩ := Generator.run_isFilled hpasses rfl (Generator.isFilled_empty _) hrun hend
  have hcapacity : max c.cache.capacity 1 = c.cache.capacity := Nat.max_eq_left (capacity_of_valid hvalid henabled)
  refine ⟨?_, fun hbefore => ?_⟩
  · rw [hfiles, Generator.files_of_no_cache rfl isOrder_inOrder]
    rfl
  · rw [← hcapacity]
    exact hhits (.inr hbefore)

/-- A configuration whose cache has room for one file. -/
def cramped : Config := { standard with cache := ⟨true, 1, none⟩ }

/-- Three passes, the second of which is stopped after its first interface. -/
def stoppedBetween : List (CancelToken × (Nat → List Nat)) :=
  [(.never, Generator.inOrder), (.afterQueries 1, Generator.inOrder), (.never, Generator.inOrder)]

theorem third_pass_hits :
    cramped.validate = .ok () ∧ cramped.cache.enabled = true ∧ cramped.cache.dir? = none ∧
      (∀ pass ∈ stoppedBetween, pass.1.IsSticky ∧ IsOrder pass.2) ∧
      ∃ g first second third, Generator.create cramped ⟨[], []⟩ = .ok g ∧
        g.run ⟨[], []⟩ (Generator.passesOn Generator.twoWanting stoppedBetween) = [first, second, third] ∧
        third.cacheHits = 1 := by
  have hvalid : cramped.validate = .ok () := by decide +kernel
  have hpasses : ∀ pass ∈ stoppedBetween, pass.1.IsSticky ∧ IsOrder pass.2 := by
    simp [stoppedBetween, CancelToken.isSticky_never, CancelToken.isSticky_afterQueries, isOrder_inOrder]
  obtain ⟨g, plain, hg, hplain, hall⟩ :=
    passes_are_stable Generator.twoWanting hvalid rfl rfl hpasses ⟨[], []⟩
  obtain rfl : plain = ⟨cramped.withoutCache, none⟩ :=
    Except.ok.inj (hplain.symm.trans (create_withoutCache hvalid ⟨[], []⟩))
  have hcount : ((⟨cramped.withoutCache, none⟩ : Generator).requestsOf Generator.twoWanting).length = 2 := by
    decide +kernel
  refine ⟨hvalid, rfl, rfl, hpasses, g, _, _, _, hg, rfl, ?_⟩
  have hthird := (hall [_, _] _ [] rfl rfl).2 ⟨_, List.mem_cons_self, rfl⟩
  rw [hcount] at hthird
  exact hthird

end Config

end ContractStubs
