import ContractStubs.Pass.Generator
import ContractStubs.Program.Members
import ContractStubs.Proofs.Cache.Entries
import Mathlib.Data.List.Sort

/-!
# The files of a pass that is not stopped

A pass that is not stopped has a file for each request, in the order of the requests, in whatever order its slots are
reached (`Generator.produced_never`). Where each entry of the cache that a request finds holds the file that would be
made for it, these are the files that a pass without a cache makes (`Generator.files_eq`).
-/

namespace ContractStubs

/-! ## The order of the slots -/

section Slots

variable {provider : Provider} {options : StubOptions} {slots : List Slot}

/-- The slots are reached in some order, each once. -/
def IsOrder (order : Nat → List Nat) : Prop := ∀ count, (order count).Perm (List.range count)

theorem isOrder_inOrder : IsOrder Generator.inOrder := fun _ => .refl _

/-- Without a stop each slot gives its product. -/
theorem workThrough_never : ∀ (reached : List (Slot × Nat)) (progress : Progress),
    (workThrough provider options .never progress reached).1 =
      reached.map fun slot => (slot.1.product provider options, slot.2)
  | [], _ => rfl
  | (slot, number) :: reached, progress => by
    rw [workThrough]
    exact congrArg _ (workThrough_never reached _)

/-- The products of the slots with these numbers. -/
def productsAt (provider : Provider) (options : StubOptions) (slots : List Slot) (numbers : List Nat) :
    List (Product × Nat) :=
  numbers.filterMap fun number => slots[number]?.map fun slot => (slot.product provider options, number)

theorem productsAt_range : (productsAt provider options slots (List.range slots.length)).map (·.1) =
    slots.map (Slot.product provider options) := by
  have hget : productsAt provider options slots (List.range slots.length) =
      (List.range slots.length).map fun number => ((slots.getD number default).product provider options, number) := by
    rw [productsAt, ← List.filterMap_eq_map]
    refine List.filterMap_congr fun number hnumber => ?_
    have hlt := List.mem_range.mp hnumber
    simp [List.getElem?_eq_getElem hlt]
  rw [hget, List.map_map]
  refine List.ext_getElem (by simp) fun i hi hi' => ?_
  have hlt : i < slots.length := by simpa using hi'
  simp [List.getElem?_eq_getElem hlt]

/-- Products whose numbers differ have one order. -/
theorem mergeSort_eq_of_perm {products sorted : List (Product × Nat)} (hsorted : sorted.Pairwise fun a b => a.2 < b.2)
    (hperm : products.Perm sorted) : (products.mergeSort fun a b => a.2 ≤ b.2) = sorted := by
  have hordered : (products.mergeSort fun a b => a.2 ≤ b.2).Pairwise fun a b => decide (a.2 ≤ b.2) = true := by
    refine List.pairwise_mergeSort (fun a b c hab hbc => ?_) (fun a b => ?_) _
    · rw [decide_eq_true_eq] at hab hbc ⊢
      omega
    · rw [Bool.or_eq_true, decide_eq_true_eq, decide_eq_true_eq]
      omega
  have hnumbers : (sorted.map (·.2)).Nodup := by
    rw [List.nodup_iff_pairwise_ne, List.pairwise_map]
    exact hsorted.imp Nat.ne_of_lt
  have hsame := (products.mergeSort_perm fun a b => a.2 ≤ b.2).trans hperm
  refine hsame.eq_of_pairwise (fun a b ha hb hab hba => ?_) (hordered.imp of_decide_eq_true) (hsorted.imp Nat.le_of_lt)
  exact List.inj_on_of_nodup_map hnumbers (hsame.mem_iff.mp ha) hb (Nat.le_antisymm hab hba)

theorem pairwise_productsAt_range (count : Nat) :
    (productsAt provider options slots (List.range count)).Pairwise fun a b => a.2 < b.2 := by
  rw [productsAt, List.pairwise_filterMap]
  refine (List.pairwise_lt_range).imp fun hlt a ha b hb => ?_
  obtain ⟨_, -, rfl⟩ := Option.map_eq_some_iff.mp ha
  obtain ⟨_, -, rfl⟩ := Option.map_eq_some_iff.mp hb
  exact hlt

end Slots

/-! ## One pass -/

namespace Config

/-- The program of a model under a configuration. -/
def program (c : Config) (m : Model) : Program := .ofModel m c.knownTypes

/-- The answers about a model. -/
def providerOf (c : Config) (depth : Nat) (m : Model) : Provider := (c.program m).provider depth

end Config

namespace Generator

variable {g : Generator} {provider : Provider} {order : Nat → List Nat} {disk : Disk} {cache? : Option StubCache}
  {r : StubRequest} {rs : List StubRequest} {good : CacheEntry → Prop}

/-- The requests that a pass works on. -/
def requestsOf (g : Generator) (provider : Provider) : List StubRequest :=
  provider.requests g.config.markerSought (provider.candidates g.config.markerSought)

/-- The file that is made for a request. -/
def fileOf (g : Generator) (provider : Provider) (r : StubRequest) : StubFile :=
  provider.stubFile g.options.allowSynchronous g.options.outputExtension r

/-- The fingerprint of a request. -/
def fingerprintOf (g : Generator) (provider : Provider) (r : StubRequest) : String :=
  provider.fingerprintOf g.config.fingerprintParts r

/-- The slots of a pass. -/
def slotsOf (g : Generator) (provider : Provider) : List Slot :=
  (slotsFor g.config provider g.cache? (g.requestsOf provider)).1

/-- The products of a pass that is not stopped. -/
def products (g : Generator) (provider : Provider) : List Product :=
  (g.slotsOf provider).map (Slot.product provider g.options)

/-- The cache behind a pass with some products. -/
def cacheBehind (g : Generator) (provider : Provider) (disk : Disk) (products : List Product) : Option StubCache :=
  (products.foldl (fun (cache?, disk) p => remember cache? disk p)
    ((slotsFor g.config provider g.cache? (g.requestsOf provider)).2, disk)).1

/-- The slots of a pass in the order in which they are reached, each with its number. -/
def slotsReached (g : Generator) (provider : Provider) (order : Nat → List Nat) : List (Slot × Nat) :=
  (order (g.slotsOf provider).length).filterMap fun number =>
    (g.slotsOf provider)[number]?.map fun slot => (slot, number)

/-- What a pass produces until it is stopped, in the order of the requests. -/
def produced (g : Generator) (provider : Provider) (token : CancelToken) (order : Nat → List Nat) : List Product :=
  ((workThrough provider g.options token .start (g.slotsReached provider order)).1.mergeSort
    fun a b => a.2 ≤ b.2).map (·.1)

/-- How far a pass comes. -/
def lastProgress (g : Generator) (provider : Provider) (token : CancelToken) (order : Nat → List Nat) : Progress :=
  (workThrough provider g.options token .start (g.slotsReached provider order)).2

/-- What a pass reports and leaves behind, by what it produces. -/
theorem generate_eq {token : CancelToken} :
    (g.generate provider token order disk).1.files = (g.produced provider token order).map (·.file) ∧
      (g.generate provider token order disk).1.cacheHits =
        (g.produced provider token order).countP (·.fingerprint?.isNone) ∧
      (g.generate provider token order disk).1.cancelled = token (g.lastProgress provider token order) ∧
      (g.generate provider token order disk).2.1 =
        { g with cache? := g.cacheBehind provider disk (g.produced provider token order) } :=
  ⟨rfl, rfl, rfl, rfl⟩

/-- **A pass that is not stopped has the products of its slots, in whatever order they are reached.** -/
theorem produced_never (horder : IsOrder order) : g.produced provider .never order = g.products provider := by
  have hwork : (workThrough provider g.options .never .start (g.slotsReached provider order)).1 =
      productsAt provider g.options (g.slotsOf provider) (order (g.slotsOf provider).length) := by
    rw [workThrough_never, slotsReached, List.map_filterMap, productsAt]
    simp only [Option.map_map]
    rfl
  have hperm : (productsAt provider g.options (g.slotsOf provider) (order (g.slotsOf provider).length)).Perm
      (productsAt provider g.options (g.slotsOf provider) (List.range (g.slotsOf provider).length)) :=
    (horder _).filterMap _
  rw [produced, hwork, mergeSort_eq_of_perm (pairwise_productsAt_range _) hperm, productsAt_range]
  rfl

/-- Without a cache all slots are worked on. -/
theorem slotsFor_none : ∀ rs : List StubRequest, slotsFor g.config provider none rs =
    (rs.map fun r => .pending r (g.fingerprintOf provider r), none)
  | [] => rfl
  | r :: rs => by
    rw [slotsFor, slotFor]
    dsimp only
    rw [slotsFor_none rs]
    rfl

/-- **A pass without a cache makes the file of each request.** -/
theorem files_of_no_cache (hcache : g.cache? = none) (horder : IsOrder order) :
    (g.generate provider .never order disk).1.files = (g.requestsOf provider).map (g.fileOf provider) := by
  rw [generate_eq.1, produced_never horder, products, slotsOf, hcache, slotsFor_none, List.map_map, List.map_map]
  rfl

theorem typeNames_of_no_cache (hcache : g.cache? = none) (horder : IsOrder order) :
    (g.generate provider .never order disk).1.files.map (·.typeName) = (g.requestsOf provider).map (·.qualifiedName) := by
  rw [files_of_no_cache hcache horder, List.map_map]
  rfl

/-! ## The cache through a pass -/

/-- All entries of a cache, if there is one, are good. -/
def Holds (good : CacheEntry → Prop) (cache? : Option StubCache) : Prop :=
  ∀ cache, cache? = some cache → ∀ e ∈ cache.entries, good e

/-- A good entry that a request finds holds the file that is made for the request. -/
def Serves (g : Generator) (provider : Provider) (good : CacheEntry → Prop) (r : StubRequest) : Prop :=
  ∀ e, good e → e.typeName = r.qualifiedName → e.fingerprint = g.fingerprintOf provider r →
    e.file = g.fileOf provider r

/-- A slot for a request has the file that is made for it, from the cache or new. -/
def IsProductOf (g : Generator) (provider : Provider) (r : StubRequest) (product : Product) : Prop :=
  product.file = g.fileOf provider r ∧
    ∀ fingerprint, product.fingerprint? = some fingerprint → fingerprint = g.fingerprintOf provider r

theorem holds_slotFor (hcache : Holds good cache?) : Holds good (slotFor g.config provider cache? r).2 := by
  cases cache? with
  | none => exact hcache
  | some cache =>
    intro cache' he e hmem
    cases he
    exact hcache cache rfl e (StubCache.mem_of_mem_get hmem)

/-- Looking requests up brings no entries in. -/
theorem holds_slotsFor : ∀ {rs : List StubRequest} {cache? : Option StubCache}, Holds good cache? →
    Holds good (slotsFor g.config provider cache? rs).2
  | [], _, hcache => hcache
  | r :: rs, cache?, hcache => by
    change Holds good (slotsFor g.config provider (slotFor g.config provider cache? r).2 rs).2
    exact holds_slotsFor (holds_slotFor hcache)

theorem isProductOf_slotFor (hcache : Holds good cache?) (hserves : g.Serves provider good r) :
    g.IsProductOf provider r ((slotFor g.config provider cache? r).1.product provider g.options) := by
  cases cache? with
  | none => exact ⟨rfl, fun fingerprint h => (Option.some.inj h).symm⟩
  | some cache =>
    rw [slotFor]
    dsimp only
    cases hget : (cache.get r.qualifiedName (provider.fingerprintOf g.config.fingerprintParts r)).1 with
    | none => exact ⟨rfl, fun fingerprint h => (Option.some.inj h).symm⟩
    | some file =>
      obtain ⟨e, he, hname, hfp, rfl⟩ := StubCache.of_get_eq_some hget
      exact ⟨hserves e (hcache cache rfl e he) hname hfp, fun fingerprint h => by cases h⟩

/-- The slots of some requests have their products, one behind the other. -/
theorem isProductOf_slotsFor : ∀ {rs : List StubRequest} {cache? : Option StubCache}, Holds good cache? →
    (∀ r ∈ rs, g.Serves provider good r) →
      List.Forall₂ (g.IsProductOf provider) rs
        ((slotsFor g.config provider cache? rs).1.map (Slot.product provider g.options))
  | [], _, _, _ => .nil
  | r :: rs, _, hcache, hserves => by
    obtain ⟨hr, hrs⟩ := List.forall_mem_cons.mp hserves
    exact .cons (isProductOf_slotFor hcache hr) (isProductOf_slotsFor (holds_slotFor hcache) hrs)

/-- What belongs to requests are files that are made for them. -/
theorem map_file_of_isProductOf {products : List Product} (h : List.Forall₂ (g.IsProductOf provider) rs products) :
    products.map (·.file) = rs.map (g.fileOf provider) := by
  induction h with
  | nil => rfl
  | cons hproduct _ ih => rw [List.map_cons, List.map_cons, hproduct.1, ih]

theorem exists_of_isProductOf {products : List Product} (h : List.Forall₂ (g.IsProductOf provider) rs products)
    {product : Product} (hmem : product ∈ products) : ∃ r ∈ rs, g.IsProductOf provider r product := by
  induction h with
  | nil => cases hmem
  | @cons r product' rs products hproduct _ ih =>
    rcases List.mem_cons.mp hmem with rfl | hmem
    · exact ⟨r, List.mem_cons_self, hproduct⟩
    · obtain ⟨r', hr', h'⟩ := ih hmem
      exact ⟨r', List.mem_cons_of_mem _ hr', h'⟩

theorem holds_remember {product : Product} (hcache : Holds good cache?)
    (hnew : ∀ fingerprint, product.fingerprint? = some fingerprint → good (.ofFile product.file fingerprint)) :
    Holds good (remember cache? disk product).1 := by
  cases cache? with
  | none => exact hcache
  | some cache =>
    cases hfp : product.fingerprint? with
    | none =>
      simp only [remember, hfp]
      exact hcache
    | some fingerprint =>
      intro cache' he e hmem
      simp only [remember, hfp] at he
      cases he
      rcases StubCache.of_mem_insert hmem with rfl | hmem
      · exact hnew fingerprint hfp
      · exact hcache cache rfl e hmem

theorem holds_foldl_remember : ∀ {products : List Product} {cache? : Option StubCache} {disk : Disk},
    Holds good cache? →
    (∀ product ∈ products, ∀ fingerprint, product.fingerprint? = some fingerprint →
      good (.ofFile product.file fingerprint)) →
      Holds good (products.foldl (fun (cache?, disk) p => remember cache? disk p) (cache?, disk)).1
  | [], _, _, hcache, _ => hcache
  | product :: products, cache?, disk, hcache, hnew => by
    obtain ⟨hhead, htail⟩ := List.forall_mem_cons.mp hnew
    have hstep : Holds good (remember cache? disk product).1 := holds_remember hcache hhead
    change Holds good (products.foldl _ (remember cache? disk product)).1
    generalize remember cache? disk product = behind at hstep ⊢
    obtain ⟨cache?', disk'⟩ := behind
    exact holds_foldl_remember hstep htail

/-- **A pass whose requests are served has the files that are made for them**, and leaves good entries. -/
theorem files_eq (horder : IsOrder order) (hcache : Holds good g.cache?)
    (hserves : ∀ r ∈ g.requestsOf provider, g.Serves provider good r)
    (hnew : ∀ r ∈ g.requestsOf provider, good (.ofFile (g.fileOf provider r) (g.fingerprintOf provider r))) :
    (g.generate provider .never order disk).1.files = (g.requestsOf provider).map (g.fileOf provider) ∧
      Holds good (g.generate provider .never order disk).2.1.cache? := by
  have hproducts : List.Forall₂ (g.IsProductOf provider) (g.requestsOf provider) (g.products provider) :=
    isProductOf_slotsFor hcache hserves
  rw [generate_eq.1, generate_eq.2.2.2, produced_never horder]
  refine ⟨map_file_of_isProductOf hproducts, ?_⟩
  refine holds_foldl_remember (holds_slotsFor hcache) fun product hproduct fingerprint hfp => ?_
  obtain ⟨r, hr, hfile, hfingerprint⟩ := exists_of_isProductOf hproducts hproduct
  rw [hfile, hfingerprint fingerprint hfp]
  exact hnew r hr

/-! ## Passes one after the other -/

end Generator

/-- A pass over a program. -/
structure Pass where
  provider : Provider
  token : CancelToken
  order : Nat → List Nat

/-- The reports of passes of one generator, one after the other. -/
def Generator.run : Generator → Disk → List Pass → List PassReport
  | _, _, [] => []
  | g, disk, pass :: passes =>
    let (report, g, disk) := g.generate pass.provider pass.token pass.order disk
    report :: run g disk passes

theorem Generator.run_cons {g : Generator} {disk : Disk} {pass : Pass} {passes : List Pass} :
    g.run disk (pass :: passes) = (g.generate pass.provider pass.token pass.order disk).1 ::
      (g.generate pass.provider pass.token pass.order disk).2.1.run
        (g.generate pass.provider pass.token pass.order disk).2.2 passes := rfl

end ContractStubs
