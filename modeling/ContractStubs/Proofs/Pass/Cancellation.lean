import ContractStubs.Proofs.Pass.Files
import ContractStubs.Proofs.Samples
import ContractStubs.Proofs.Sink.Emission

/-!
# Passes that are stopped

A token that is set stays set. Whenever that happens, the slots that were reached before have their products and the
others have none (`workThrough_eq_take`). So a pass that works on one slot after the other has a first part of the files
that it would have had otherwise (`Generator.produced_begins`), and in whatever order the slots are reached no file is
made up, repeated or moved (`Generator.produced_sublist`). The cache takes what is new of that and nothing else.
-/

namespace ContractStubs

/-! ## Tokens -/

/-- A pass that has come to `q` was at `p` before or has come no further. -/
structure Progress.IsBefore (p q : Progress) : Prop where
  slots : p.slots ≤ q.slots
  queries : p.queries ≤ q.queries

/-- Once the token is set it stays set. -/
def CancelToken.IsSticky (token : CancelToken) : Prop :=
  ∀ ⦃p q : Progress⦄, p.IsBefore q → token p = true → token q = true

theorem CancelToken.isSticky_never : never.IsSticky := fun _ _ _ h => h

theorem CancelToken.isSticky_afterQueries (count : Nat) : (afterQueries count).IsSticky := by
  intro p q hpq hp
  have hcount : count ≤ p.queries := of_decide_eq_true hp
  exact decide_eq_true (hcount.trans hpq.queries)

/-! ## Working through slots -/

section Work

variable (provider : Provider) (options : StubOptions) {token : CancelToken}

/-- The numbered product of a numbered slot. -/
def numberedProduct (slot : Slot × Nat) : Product × Nat :=
  (slot.1.product provider options, slot.2)

/-- Whatever the token does, what is produced are products of the slots in the order in which they are reached. -/
theorem workThrough_sublist (token : CancelToken) : ∀ (reached : List (Slot × Nat)) (progress : Progress),
    (workThrough provider options token progress reached).1.Sublist (reached.map (numberedProduct provider options))
  | [], _ => .slnil
  | slot :: reached, progress => by
    rw [workThrough]
    split
    · exact (workThrough_sublist token reached _).cons _
    · exact (workThrough_sublist token reached _).cons_cons _

/-- After the token was set, the slots that are left are passed over. -/
theorem workThrough_of_set (hsticky : token.IsSticky) : ∀ (reached : List (Slot × Nat)) {progress : Progress},
    token progress = true →
      workThrough provider options token progress reached = ([], ⟨progress.slots + reached.length, progress.queries⟩)
  | [], _, _ => rfl
  | slot :: reached, progress, hset => by
    have hnext : token (progress.advance 0) = true := hsticky ⟨Nat.le_succ _, Nat.le_refl _⟩ hset
    rw [workThrough, if_pos hset, workThrough_of_set hsticky reached hnext, List.length_cons, Progress.advance]
    simp only [Nat.add_assoc, Nat.add_comm 1, Nat.add_zero]

/-- **The slots up to some moment have their products, and the later ones have none.** All are reached, and only the
interfaces of the former are asked for their members. -/
theorem workThrough_eq_take (hsticky : token.IsSticky) : ∀ (reached : List (Slot × Nat)) (progress : Progress),
    ∃ count, workThrough provider options token progress reached =
      ((reached.take count).map (numberedProduct provider options),
        ⟨progress.slots + reached.length,
          (reached.take count).foldl (fun queries slot => queries + slot.1.queries) progress.queries⟩)
  | [], _ => ⟨0, rfl⟩
  | slot :: reached, progress => by
    by_cases hset : token progress = true
    · refine ⟨0, ?_⟩
      rw [workThrough_of_set provider options hsticky _ hset]
      rfl
    · obtain ⟨count, hcount⟩ := workThrough_eq_take hsticky reached (progress.advance slot.1.queries)
      refine ⟨count + 1, ?_⟩
      rw [workThrough, if_neg hset, hcount]
      simp only [List.take_succ_cons, List.map_cons, List.length_cons, List.foldl_cons, Progress.advance]
      have hslots : progress.slots + 1 + reached.length = progress.slots + (reached.length + 1) := by omega
      rw [hslots]
      rfl

/-- A pass at whose end the token is not set was never told to stop. -/
theorem workThrough_of_not_set (hsticky : token.IsSticky) : ∀ (reached : List (Slot × Nat)) (progress : Progress),
    token (workThrough provider options token progress reached).2 = false →
      (workThrough provider options token progress reached).1 = reached.map (numberedProduct provider options)
  | [], _, _ => rfl
  | slot :: reached, progress, hend => by
    by_cases hset : token progress = true
    · have hlast : progress.IsBefore (workThrough provider options token progress (slot :: reached)).2 := by
        rw [workThrough_of_set provider options hsticky _ hset]
        exact ⟨Nat.le_add_right _ _, Nat.le_refl _⟩
      rw [hsticky hlast hset] at hend
      cases hend
    · rw [workThrough, if_neg hset] at hend ⊢
      exact congrArg _ (workThrough_of_not_set hsticky reached _ hend)

end Work

namespace Generator

variable {g : Generator} {provider : Provider} {token : CancelToken} {order full : Nat → List Nat} {disk : Disk}

/-- Each request has a slot. -/
theorem length_slotsFor : ∀ (rs : List StubRequest) (cache? : Option StubCache),
    (slotsFor g.config provider cache? rs).1.length = rs.length
  | [], _ => rfl
  | r :: rs, cache? => by
    change (slotsFor g.config provider (slotFor g.config provider cache? r).2 rs).1.length + 1 = _
    rw [length_slotsFor rs, List.length_cons]

theorem map_slotsReached : (g.slotsReached provider order).map (numberedProduct provider g.options) =
    productsAt provider g.options (g.slotsOf provider) (order (g.slotsOf provider).length) := by
  rw [slotsReached, List.map_filterMap, productsAt]
  simp only [Option.map_map]
  rfl

theorem length_slotsReached (horder : IsOrder order) :
    (g.slotsReached provider order).length = (g.requestsOf provider).length := by
  have hperm : (g.slotsReached provider order).Perm (g.slotsReached provider inOrder) := (horder _).filterMap _
  have hproducts : ((productsAt provider g.options (g.slotsOf provider) (List.range (g.slotsOf provider).length)).map
      (·.1)).length = (g.slotsOf provider).length := by rw [productsAt_range, List.length_map]
  rw [hperm.length_eq, ← List.length_map, map_slotsReached, ← length_slotsFor (g.requestsOf provider) g.cache?]
  rwa [List.length_map] at hproducts

/-- **No product of a pass is made up, repeated or moved**, whenever the pass is stopped and in whatever order the slots
are reached. -/
theorem produced_sublist (horder : IsOrder order) :
    (g.produced provider token order).Sublist (g.products provider) := by
  have hwork := workThrough_sublist provider g.options token (g.slotsReached provider order) .start
  rw [map_slotsReached] at hwork
  have hperm : (productsAt provider g.options (g.slotsOf provider) (order (g.slotsOf provider).length)).Perm
      (productsAt provider g.options (g.slotsOf provider) (List.range (g.slotsOf provider).length)) :=
    (horder _).filterMap _
  obtain ⟨sorted, hsorted, hsub⟩ := hwork.subperm.trans hperm.subperm
  have hproduced : g.produced provider token order = sorted.map (·.1) := by
    rw [produced, mergeSort_eq_of_perm ((pairwise_productsAt_range _).sublist hsub) hsorted.symm]
  rw [hproduced, products, ← productsAt_range]
  exact hsub.map _

/-- **One slot after the other, the products up to some request are there and the later ones are not.** -/
theorem produced_begins (hsticky : token.IsSticky) : g.produced provider token inOrder <+: g.products provider := by
  obtain ⟨count, hcount⟩ := workThrough_eq_take provider g.options hsticky
    (g.slotsReached provider inOrder) .start
  have hwork : (workThrough provider g.options token .start (g.slotsReached provider inOrder)).1 <+:
      productsAt provider g.options (g.slotsOf provider) (List.range (g.slotsOf provider).length) := by
    rw [hcount]
    dsimp only
    rw [List.map_take, map_slotsReached]
    exact List.take_prefix _ _
  have hproduced : g.produced provider token inOrder =
      (workThrough provider g.options token .start (g.slotsReached provider inOrder)).1.map (·.1) := by
    rw [produced, mergeSort_eq_of_perm ((pairwise_productsAt_range _).sublist hwork.sublist) (.refl _)]
  rw [hproduced, products, ← productsAt_range]
  exact hwork.map _

/-- **A pass that is not told to stop has all products.** -/
theorem produced_of_not_cancelled (hsticky : token.IsSticky) (horder : IsOrder order)
    (hend : token (g.lastProgress provider token order) = false) :
    g.produced provider token order = g.products provider := by
  have hwork := workThrough_of_not_set provider g.options hsticky _ _ hend
  have hnever : (workThrough provider g.options .never .start (g.slotsReached provider order)).1 =
      (g.slotsReached provider order).map (numberedProduct provider g.options) := workThrough_never _ _
  rw [← produced_never horder, produced, produced, hwork, hnever]

theorem lastProgress_slots (hsticky : token.IsSticky) (horder : IsOrder order) :
    (g.lastProgress provider token order).slots = (g.requestsOf provider).length := by
  obtain ⟨count, hcount⟩ := workThrough_eq_take provider g.options hsticky
    (g.slotsReached provider order) .start
  rw [lastProgress, hcount, ← length_slotsReached horder]
  exact Nat.zero_add _

/-- The entry is for a product that was made anew. -/
def IsNewFrom (products : List Product) (e : CacheEntry) : Prop :=
  ∃ product ∈ products, product.fingerprint? = some e.fingerprint ∧ e = .ofFile product.file e.fingerprint

/-- **Nothing enters the cache but new products of the pass.** -/
theorem holds_cacheBehind (disk : Disk) (products : List Product) :
    Holds (fun e => (∃ before, g.cache? = some before ∧ e ∈ before.entries) ∨ IsNewFrom products e)
      (g.cacheBehind provider disk products) := by
  have hbefore : Holds (fun e => (∃ before, g.cache? = some before ∧ e ∈ before.entries) ∨ IsNewFrom products e)
      g.cache? := fun cache hcache e he => .inl ⟨cache, hcache, he⟩
  refine holds_foldl_remember (holds_slotsFor hbefore) fun product hproduct fingerprint hfp => .inr ?_
  exact ⟨product, hproduct, hfp, rfl⟩

/-! ## What a stopped pass does -/

/-- What is left of a pass when its token is set at some moment. -/
structure KeepsPart {σ : Type} (g : Generator) (provider : Provider) (token : CancelToken) (order full : Nat → List Nat)
    (disk : Disk) (step : SinkStep σ) (sinkOn : Disk → σ) : Prop where
  /-- One slot after the other, the files are the first ones of those that there would have been. -/
  inTurn : (g.generateInto provider token inOrder disk step sinkOn).1.files <+:
    (g.generateInto provider .never full disk step sinkOn).1.files
  /-- In any order of the slots, the files are some of those that there would have been, in their order. -/
  inAnyOrder : (g.generateInto provider token order disk step sinkOn).1.files.Sublist
    (g.generateInto provider .never full disk step sinkOn).1.files
  files : (g.generateInto provider token order disk step sinkOn).1.files =
    (g.produced provider token order).map (·.file)
  /-- An entry of the cache was there before or is for a new one of the files. -/
  cache : Holds (fun e => (∃ before, g.cache? = some before ∧ e ∈ before.entries) ∨
    IsNewFrom (g.produced provider token order) e) (g.generateInto provider token order disk step sinkOn).2.1.cache?
  /-- The sink is given the files, those with one name once. -/
  sink : (g.generateInto provider token order disk step sinkOn).2.2 =
    (handedOn [] (g.generateInto provider token order disk step sinkOn).1.files).foldl step.give
      (sinkOn (g.generate provider token order disk).2.2)
  /-- The pass ends when all slots were reached. -/
  slots : (g.lastProgress provider token order).slots = (g.requestsOf provider).length
  /-- The report says whether the token was set at any moment until then. -/
  cancelled : (g.generateInto provider token order disk step sinkOn).1.cancelled = true ↔
    ∃ moment, moment.IsBefore (g.lastProgress provider token order) ∧ token moment = true

/-- **Whenever a pass is stopped, it keeps a faithful part of what it would have done.** -/
theorem keeps_part {σ : Type} (hsticky : token.IsSticky) (horder : IsOrder order) (hfull : IsOrder full)
    (step : SinkStep σ) (sinkOn : Disk → σ) : g.KeepsPart provider token order full disk step sinkOn where
  inTurn := by
    have hall : (g.generateInto provider .never full disk step sinkOn).1.files =
        (g.products provider).map (·.file) := congrArg _ (produced_never hfull)
    rw [hall]
    exact (produced_begins hsticky).map _
  inAnyOrder := by
    have hall : (g.generateInto provider .never full disk step sinkOn).1.files =
        (g.products provider).map (·.file) := congrArg _ (produced_never hfull)
    rw [hall]
    exact (produced_sublist horder).map _
  files := rfl
  cache := holds_cacheBehind disk _
  sink := emitAll_sink _ _
  slots := lastProgress_slots hsticky horder
  cancelled := by
    constructor
    · intro hset
      exact ⟨_, ⟨Nat.le_refl _, Nat.le_refl _⟩, hset⟩
    · rintro ⟨moment, hbefore, hset⟩
      exact hsticky hbefore hset

theorem second_not_made :
    (CancelToken.afterQueries 1).IsSticky ∧ IsOrder inOrder ∧
      (((⟨.standard, none⟩ : Generator).produced twoWanting (.afterQueries 1) inOrder).map (·.file.typeName)) = ["First"] ∧
      (⟨.standard, none⟩ : Generator).KeepsPart twoWanting (.afterQueries 1) inOrder inOrder ⟨[], []⟩ listing
        (fun _ => []) := by
  have hsticky : (CancelToken.afterQueries 1).IsSticky := CancelToken.isSticky_afterQueries 1
  have hwork : (workThrough twoWanting (⟨.standard, none⟩ : Generator).options (.afterQueries 1) .start
      ((⟨.standard, none⟩ : Generator).slotsReached twoWanting inOrder)).1.map (fun p => (p.1.file.typeName, p.2)) =
        [("First", 0)] := by decide +kernel
  refine ⟨hsticky, isOrder_inOrder, ?_, keeps_part hsticky isOrder_inOrder isOrder_inOrder listing fun _ => []⟩
  obtain ⟨first, hfirst, hname⟩ := List.map_eq_singleton_iff.mp hwork
  rw [produced, hfirst, List.mergeSort_singleton]
  exact congrArg (fun name => [name]) (Prod.mk.inj hname).1

/-! ## Files of one name -/

/-- Types that differ in the brackets of their namespaces only. -/
def twoRows : Provider := Config.standard.providerOf 2 (.ofList
  [{ Config.wanting "Row" "IRow" with namespaceName? := some "Data[T]" },
    { Config.wanting "Row" "IRow" with namespaceName? := some "Data<T>" }])

/-- Their files have one name, so the sink is not given both. -/
theorem second_row_not_given :
    let pass := (⟨.standard, none⟩ : Generator).generateInto twoRows .never inOrder ⟨[], []⟩ listing fun _ => []
    pass.1.files.map (·.typeName) = ["Data[T].Row", "Data<T>.Row"] ∧ pass.2.2.map (·.1) = ["Data[T].Row.g.cs"] ∧
      pass.2.2 ≠ pass.1.files.map fun f => (f.identifier, f.text) := by
  have hfiles : ((⟨.standard, none⟩ : Generator).generate twoRows .never inOrder ⟨[], []⟩).1.files = _ :=
    files_of_no_cache rfl isOrder_inOrder
  have hsink : ((⟨.standard, none⟩ : Generator).generateInto twoRows .never inOrder ⟨[], []⟩ listing fun _ => []).2.2 =
      (emitAll listing [] ((⟨.standard, none⟩ : Generator).generate twoRows .never inOrder ⟨[], []⟩).1.files).2 := rfl
  have hreport : ((⟨.standard, none⟩ : Generator).generateInto twoRows .never inOrder ⟨[], []⟩ listing
      fun _ => []).1.files = ((⟨.standard, none⟩ : Generator).generate twoRows .never inOrder ⟨[], []⟩).1.files := rfl
  dsimp only
  rw [hsink, hreport, hfiles]
  decide +kernel

end Generator

end ContractStubs
