import ContractStubs.Proofs.Pass.Files
import ContractStubs.Proofs.Samples

/-!
# Entries that cannot be written

An entry is written before it enters the cache, so where that fails the cache stays as it is
(`StubCache.insert_of_saveEntry_eq_error`). A pass puts its products into the cache one after the other while it reports
and counts them (`Generator.generateWith`), and writes may fail there at any time. Whichever of them fail, the report is
the one of a pass in which none fails, and the cache has taken the entries that were written and nothing of the others
(`Generator.failed_writes_unseen`).
-/

namespace ContractStubs

/-- How a store with states of some type takes an entry: its answer and its next state. -/
abbrev WriteStep (σ : Type) := σ → CacheEntry → Except Failure Unit × σ

namespace WriteStep

/-- Entries go to a directory, if there is one. -/
def onDisk (dir? : Option String) : WriteStep Disk := fun disk e =>
  match dir? with
  | none => (.ok (), disk)
  | some directory => e.save disk directory

/-- Every entry is taken. -/
def unfailing : WriteStep Unit := fun _ _ => (.ok (), ())

/-- Of the entries one after the other those fail that are told by their numbers. -/
def failingAt (fails : Nat → Option Failure) : WriteStep Nat := fun number _ =>
  ((fails number).elim (.ok ()) .error, number + 1)

/-- The entry of a product that is new and is taken, and the store behind it. -/
def take {σ : Type} (write : WriteStep σ) (store : σ) (p : Product) : Option CacheEntry × σ :=
  match p.fingerprint? with
  | none => (none, store)
  | some fingerprint =>
    match write store (.ofFile p.file fingerprint) with
    | (.error _, store) => (none, store)
    | (.ok (), store) => (some (.ofFile p.file fingerprint), store)

/-- The entries of new products that are taken. -/
def written {σ : Type} (write : WriteStep σ) : σ → List Product → List CacheEntry
  | _, [] => []
  | store, p :: ps => (write.take store p).1.toList ++ write.written (write.take store p).2 ps

end WriteStep

/-! ## One insert -/

namespace StubCache

variable {σ : Type} {c : StubCache} {disk : Disk} {file : StubFile} {fingerprint : String} {failure : Failure}

/-- The cache with a file, once its entry is written. -/
def insertWith (write : WriteStep σ) (c : StubCache) (store : σ) (file : StubFile) (fingerprint : String) :
    Except Failure Unit × StubCache × σ :=
  match write store (.ofFile file fingerprint) with
  | (.error failure, store) => (.error failure, c, store)
  | (.ok (), store) => (.ok (), c.put (.ofFile file fingerprint), store)

theorem onDisk_dir? (c : StubCache) (disk : Disk) (e : CacheEntry) :
    WriteStep.onDisk c.dir? disk e = c.saveEntry disk e := by
  obtain ⟨capacity, dir?, entries⟩ := c
  cases dir? <;> rfl

/-- An insert writes to the directory of the cache. -/
theorem insert_eq_insertWith :
    c.insert disk file fingerprint = c.insertWith (.onDisk c.dir?) disk file fingerprint := by
  rw [insertWith, onDisk_dir?, insert]
  obtain ⟨answer, disk'⟩ := c.saveEntry disk (.ofFile file fingerprint)
  cases answer <;> rfl

/-- **What cannot be written does not enter**, and all that was there stays. -/
theorem insert_of_saveEntry_eq_error (h : (c.saveEntry disk (.ofFile file fingerprint)).1 = .error failure) :
    (c.insert disk file fingerprint).1 = .error failure ∧ (c.insert disk file fingerprint).2.1 = c := by
  unfold insert
  split
  next cause disk' hsave =>
    rw [hsave] at h
    exact ⟨h, rfl⟩
  next disk' hsave =>
    rw [hsave] at h
    cases h

theorem dir?_insert (c : StubCache) (disk : Disk) (file : StubFile) (fingerprint : String) :
    (c.insert disk file fingerprint).2.1.dir? = c.dir? := by
  unfold insert
  split <;> rfl

end StubCache

namespace Generator

variable {σ : Type} {g : Generator} {provider : Provider} {write : WriteStep σ} {store : σ}

/-! ## The products of a pass -/

/-- A pass that has settled some of its products: what the cache and the store are by now, and what was reported. -/
structure Settlement (σ : Type) where
  cache? : Option StubCache
  store : σ
  files : List StubFile
  /-- The number of files that came from the cache. -/
  cacheHits : Nat

namespace Settlement

/-- One more product is reported; if it is new it is put into the cache, and if that fails nothing comes of it. -/
def add (write : WriteStep σ) (s : Settlement σ) (p : Product) : Settlement σ :=
  match p.fingerprint?, s.cache? with
  | none, _ => { s with files := s.files ++ [p.file], cacheHits := s.cacheHits + 1 }
  | some _, none => { s with files := s.files ++ [p.file] }
  | some fingerprint, some cache =>
    let (_, cache, store) := cache.insertWith write s.store p.file fingerprint
    ⟨some cache, store, s.files ++ [p.file], s.cacheHits⟩

/-- Products are settled one after the other. -/
def addAll (write : WriteStep σ) (s : Settlement σ) (products : List Product) : Settlement σ :=
  products.foldl (add write) s

variable {s : Settlement σ} {p : Product}

/-- The report of a product does not depend on what the store answers. -/
theorem report_add (write : WriteStep σ) (s : Settlement σ) (p : Product) :
    (s.add write p).files = s.files ++ [p.file] ∧
      (s.add write p).cacheHits = s.cacheHits + if p.fingerprint?.isNone then 1 else 0 := by
  obtain ⟨cache?, store, files, hits⟩ := s
  obtain ⟨file, fingerprint?⟩ := p
  cases fingerprint? <;> cases cache? <;> exact ⟨rfl, rfl⟩

/-- A cache takes the entry of a product if the store takes it. -/
theorem cache?_add (write : WriteStep σ) (p : Product) {cache : StubCache} (hcache : s.cache? = some cache) :
    (s.add write p).cache? = some ((write.take s.store p).1.elim cache cache.put) ∧
      (s.add write p).store = (write.take s.store p).2 := by
  obtain ⟨cache?, store, files, hits⟩ := s
  obtain rfl : cache? = some cache := hcache
  obtain ⟨file, fingerprint?⟩ := p
  cases fingerprint? with
  | none => exact ⟨rfl, rfl⟩
  | some fingerprint =>
    simp only [add, StubCache.insertWith, WriteStep.take]
    obtain ⟨answer, store'⟩ := write store (.ofFile file fingerprint)
    cases answer <;> exact ⟨rfl, rfl⟩

theorem cache?_add_none (hcache : s.cache? = none) : (s.add write p).cache? = none := by
  obtain ⟨cache?, store, files, hits⟩ := s
  obtain rfl : cache? = none := hcache
  obtain ⟨file, fingerprint?⟩ := p
  cases fingerprint? <;> rfl

/-- **The report of products does not depend on what the store answers.** -/
theorem report_addAll (write : WriteStep σ) (products : List Product) (s : Settlement σ) :
    (s.addAll write products).files = s.files ++ products.map (·.file) ∧
      (s.addAll write products).cacheHits = s.cacheHits + products.countP (·.fingerprint?.isNone) := by
  induction products generalizing s with
  | nil => exact ⟨(List.append_nil _).symm, rfl⟩
  | cons p products ih =>
    obtain ⟨hfiles, hhits⟩ := ih (s.add write p)
    obtain ⟨hfile, hhit⟩ := report_add write s p
    constructor
    · calc (s.addAll write (p :: products)).files
        _ = (s.add write p).files ++ products.map (·.file) := hfiles
        _ = s.files ++ (p :: products).map (·.file) := by rw [hfile, List.append_assoc]; rfl
    · calc (s.addAll write (p :: products)).cacheHits
        _ = (s.add write p).cacheHits + products.countP (·.fingerprint?.isNone) := hhits
        _ = s.cacheHits + (p :: products).countP (·.fingerprint?.isNone) := by rw [hhit, List.countP_cons]; omega

/-- **The cache takes the entries that the store takes, and nothing else happens to it.** -/
theorem cache?_addAll (write : WriteStep σ) (products : List Product) (s : Settlement σ) :
    (s.addAll write products).cache? =
      s.cache?.map fun cache => (write.written s.store products).foldl StubCache.put cache := by
  induction products generalizing s with
  | nil => exact Option.map_id'.symm
  | cons p products ih =>
    change ((s.add write p).addAll write products).cache? = _
    rw [ih]
    cases hcache : s.cache? with
    | none =>
      rw [cache?_add_none hcache]
      rfl
    | some cache =>
      obtain ⟨hentry, hstore⟩ := cache?_add write p hcache
      rw [hentry, hstore, Option.map_some, Option.map_some, WriteStep.written, List.foldl_append]
      cases (write.take s.store p).1 <;> rfl

end Settlement

/-! ## A pass -/

/-- One pass over a program whose cache writes its entries to a store. -/
def generateWith (g : Generator) (write : WriteStep σ) (store : σ) (provider : Provider) (token : CancelToken)
    (order : Nat → List Nat) : PassReport × Generator × σ :=
  let candidates := provider.candidates g.config.markerSought
  let kept := (g.requestsOf provider).foldl (fun n r => n + r.target.declarations.length) 0
  let looked := (slotsFor g.config provider g.cache? (g.requestsOf provider)).2
  let s := (Settlement.mk looked store [] 0).addAll write (g.produced provider token order)
  let report : PassReport :=
    { files := s.files
      candidates := candidates.length
      dropped := candidates.length - kept
      cacheHits := s.cacheHits
      cancelled := token (g.lastProgress provider token order)
      emission := .empty }
  (report, { g with cache? := s.cache? }, s.store)

/-- The directory of a cache, if there is a cache and it has one. -/
def dirOf? (cache? : Option StubCache) : Option String := cache?.bind (·.dir?)

theorem dirOf?_slotsFor (g : Generator) (provider : Provider) (cache? : Option StubCache) (rs : List StubRequest) :
    dirOf? (slotsFor g.config provider cache? rs).2 = dirOf? cache? := by
  induction rs generalizing cache? with
  | nil => rfl
  | cons r rs ih =>
    change dirOf? (slotsFor g.config provider (slotFor g.config provider cache? r).2 rs).2 = _
    rw [ih]
    cases cache? with
    | none => rfl
    | some cache => exact StubCache.get_dir? cache _ _

/-- With the disk as its store, a cache takes a product as it is remembered. -/
theorem add_onDisk (s : Settlement Disk) (p : Product) :
    ((s.add (.onDisk (dirOf? s.cache?)) p).cache?, (s.add (.onDisk (dirOf? s.cache?)) p).store) =
        remember s.cache? s.store p ∧
      dirOf? (s.add (.onDisk (dirOf? s.cache?)) p).cache? = dirOf? s.cache? := by
  obtain ⟨cache?, disk, files, hits⟩ := s
  obtain ⟨file, fingerprint?⟩ := p
  cases fingerprint? with
  | none => cases cache? <;> exact ⟨rfl, rfl⟩
  | some fingerprint =>
    cases cache? with
    | none => exact ⟨rfl, rfl⟩
    | some cache =>
      have hinsert : cache.insertWith (.onDisk (dirOf? (some cache))) disk file fingerprint =
          cache.insert disk file fingerprint := StubCache.insert_eq_insertWith.symm
      simp only [Settlement.add, remember, hinsert]
      exact ⟨trivial, cache.dir?_insert disk file fingerprint⟩

/-- With the disk as its store, a cache takes products as they are remembered one after the other. -/
theorem addAll_onDisk (products : List Product) {s : Settlement Disk} {dir? : Option String}
    (hdir : dirOf? s.cache? = dir?) :
    ((s.addAll (.onDisk dir?) products).cache?, (s.addAll (.onDisk dir?) products).store) =
      products.foldl (fun (cache?, disk) p => remember cache? disk p) (s.cache?, s.store) := by
  subst hdir
  induction products generalizing s with
  | nil => rfl
  | cons p products ih =>
    obtain ⟨hstep, hdir⟩ := add_onDisk s p
    -- The cache keeps its directory, so the rest of the products is written in the same way.
    have hrest := ih (s := s.add (.onDisk (dirOf? s.cache?)) p)
    rw [hdir, hstep] at hrest
    exact hrest

/-- Whatever the store answers, the report is that of a pass with the cache's own directory. -/
theorem report_generateWith (g : Generator) (write : WriteStep σ) (store : σ) (provider : Provider)
    (token : CancelToken) (order : Nat → List Nat) (disk : Disk) :
    (g.generateWith write store provider token order).1 = (g.generate provider token order disk).1 := by
  obtain ⟨hfiles, hhits⟩ := Settlement.report_addAll write (g.produced provider token order)
    ⟨(slotsFor g.config provider g.cache? (g.requestsOf provider)).2, store, [], 0⟩
  rw [List.nil_append] at hfiles
  rw [Nat.zero_add] at hhits
  unfold generateWith
  dsimp only
  rw [hfiles, hhits]
  rfl

/-- **A pass settles its products one after the other**, with the directory of its cache as the store. -/
theorem generate_eq_generateWith (g : Generator) (provider : Provider) (token : CancelToken) (order : Nat → List Nat)
    (disk : Disk) : g.generate provider token order disk =
      g.generateWith (.onDisk (dirOf? g.cache?)) disk provider token order := by
  let s : Settlement Disk := ⟨(slotsFor g.config provider g.cache? (g.requestsOf provider)).2, disk, [], 0⟩
  have hdir : dirOf? s.cache? = dirOf? g.cache? := dirOf?_slotsFor g provider g.cache? (g.requestsOf provider)
  have hbehind := addAll_onDisk (g.produced provider token order) hdir
  refine Prod.ext ?_ (Prod.ext ?_ ?_)
  · exact (report_generateWith g _ disk provider token order disk).symm
  · exact congrArg (fun cache? => { g with cache? }) (congrArg Prod.fst hbehind).symm
  · exact (congrArg Prod.snd hbehind).symm

/-- **Nobody sees from a report which entries could not be written.** An insert whose entry cannot be written fails and
leaves the cache as it is; a pass, which inserts its new products one after the other, has the same report whichever of
the writes fail, and its cache has taken what was written and nothing else. -/
theorem failed_writes_unseen (g : Generator) (provider : Provider) (token : CancelToken) (order : Nat → List Nat) :
    (∀ (c : StubCache) (disk : Disk) (file : StubFile) (fingerprint : String) (failure : Failure),
      (c.saveEntry disk (.ofFile file fingerprint)).1 = .error failure →
        (c.insert disk file fingerprint).1 = .error failure ∧ (c.insert disk file fingerprint).2.1 = c) ∧
    (∀ disk : Disk, g.generate provider token order disk =
      g.generateWith (.onDisk (dirOf? g.cache?)) disk provider token order) ∧
    ∀ (σ : Type) (write : WriteStep σ) (store : σ),
      (g.generateWith write store provider token order).1 = (g.generateWith .unfailing () provider token order).1 ∧
      (g.generateWith write store provider token order).2.1.cache? =
        (slotsFor g.config provider g.cache? (g.requestsOf provider)).2.map fun cache =>
          (write.written store (g.produced provider token order)).foldl StubCache.put cache := by
  refine ⟨fun c disk file fingerprint failure h => StubCache.insert_of_saveEntry_eq_error h,
    generate_eq_generateWith g provider token order, fun σ write store => ⟨?_, ?_⟩⟩
  · rw [report_generateWith g write store provider token order ⟨[], []⟩,
      report_generateWith g .unfailing () provider token order ⟨[], []⟩]
  · exact Settlement.cache?_addAll write (g.produced provider token order) _

/-! ## Two failures -/

/-- A file stands where the directory of a cache should be. -/
def obstructed : Disk := ⟨[(["cache"], .file (.text ""))], []⟩

/-- A cache with an entry, and the directory that cannot be made. -/
def obstructedCache : StubCache := (StubCache.empty 8 (some "cache")).put ⟨"First", "1", default⟩

/-- The second write of a pass fails. -/
def secondFails : WriteStep Nat := .failingAt fun number => if number = 1 then some (.disk .isADirectory) else none

theorem second_write_unseen :
    let g : Generator := ⟨.standard, some (.empty 8 none)⟩
    let names := fun e : List CacheEntry => e.map (·.typeName)
    (obstructedCache.saveEntry obstructed (.ofFile default "1")).1 = .error (.disk .exists) ∧
      (obstructedCache.insert obstructed default "1").1 = .error (.disk .exists) ∧
      (obstructedCache.insert obstructed default "1").2.1 = obstructedCache ∧
      names (secondFails.written 0 (g.produced twoWanting .never inOrder)) = ["First"] ∧
      names (WriteStep.unfailing.written () (g.produced twoWanting .never inOrder)) = ["First", "Second"] ∧
      (g.generateWith secondFails 0 twoWanting .never inOrder).1 =
        (g.generateWith .unfailing () twoWanting .never inOrder).1 := by
  intro g names
  have hsave : (obstructedCache.saveEntry obstructed (.ofFile default "1")).1 = .error (.disk .exists) := rfl
  obtain ⟨hinsert, -, hpass⟩ := failed_writes_unseen g twoWanting .never inOrder
  obtain ⟨herror, hsame⟩ := hinsert _ _ _ _ _ hsave
  refine ⟨hsave, herror, hsame, ?_, ?_, (hpass Nat secondFails 0).1⟩
  · rw [produced_never isOrder_inOrder]
    decide +kernel
  · rw [produced_never isOrder_inOrder]
    decide +kernel

end Generator

end ContractStubs
