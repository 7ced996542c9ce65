import ContractStubs.Proofs.Cache.Entries
import ContractStubs.Proofs.Lists

/-!
# A cache holds what was used last

Take any calls to a new cache without a directory. A file that is inserted is a use of its type, and so is a lookup that
finds an entry, whatever the fingerprint. Then the cache holds entries for the types that were used last, the latest
first, and each is the one that was inserted last for its type (`StubCache.holds_latest_uses`). The proof is an
invariant (`StubCache.Remembers`) that each call keeps (`StubCache.Remembers.perform`).
-/

namespace ContractStubs

/-! ## Calls -/

/-- A call to a cache. -/
inductive CacheCall where
  | insert (file : StubFile) (fingerprint : String)
  | get (typeName fingerprint : String)
  | clear
  deriving DecidableEq, Repr

namespace CacheCall

/-- The cache and the disk behind a call. -/
def perform (c : StubCache) (disk : Disk) : CacheCall → StubCache × Disk
  | insert file fingerprint => (c.insert disk file fingerprint).2
  | get typeName fingerprint => ((c.get typeName fingerprint).2, disk)
  | clear => (c.clear disk).2

/-- The types that were used since the cache was cleared, the latest first, with the use that a call to the cache is. -/
def usesWith (c : StubCache) (used : List String) : CacheCall → List String
  | insert file _ => file.typeName :: used
  | get typeName _ => if (c.find? typeName).isSome then typeName :: used else used
  | clear => []

/-- The file and the fingerprint that are inserted for a type. -/
def insertedFor? (typeName : String) : CacheCall → Option (StubFile × String)
  | insert file fingerprint => if file.typeName = typeName then some (file, fingerprint) else none
  | _ => none

end CacheCall

namespace StubCache

/-- A new cache without a directory, and the disk, behind some calls, of which the latest is the first. -/
def afterCalls (capacity : Nat) (disk : Disk) : List CacheCall → StubCache × Disk
  | [] => (.empty capacity none, disk)
  | call :: before =>
    let (c, disk) := afterCalls capacity disk before
    call.perform c disk

/-- The types that were used since the cache was cleared, the latest first. -/
def uses (capacity : Nat) (disk : Disk) : List CacheCall → List String
  | [] => []
  | call :: before => call.usesWith (afterCalls capacity disk before).1 (uses capacity disk before)

/-- What was inserted last for a type. -/
def lastInsert? (calls : List CacheCall) (typeName : String) : Option (StubFile × String) :=
  calls.findSome? (CacheCall.insertedFor? typeName)

/-! ## The invariant -/

variable {c : StubCache} {disk : Disk} {used : List String} {calls : List CacheCall} {name fingerprint : String}

theorem names_moveToFront (e : CacheEntry) (entries : List CacheEntry) :
    (moveToFront e entries).map (·.typeName) = e.typeName :: (entries.map (·.typeName)).filter (· != e.typeName) := by
  rw [moveToFront, List.map_cons, List.filter_map]
  rfl

/-- Without a directory to remove, only the entries go. -/
theorem clear_of_no_dir (h : c.dir? = none) : c.clear disk = (.ok (), { c with entries := [] }, disk) := by
  unfold clear
  split
  next => rfl
  next directory hdir => cases h.symm.trans hdir

/-- The cache has no directory, and it remembers the types that were used last, each with what was inserted last. -/
structure Remembers (c : StubCache) (used : List String) (calls : List CacheCall) : Prop where
  capacity : 0 < c.capacity
  dir? : c.dir? = none
  names : c.names = used.eraseDups.take c.capacity
  latest : ∀ e ∈ c.entries, lastInsert? calls e.typeName = some (e.file, e.fingerprint)

theorem remembers_empty (capacity : Nat) : (empty capacity none).Remembers [] [] :=
  ⟨Nat.lt_of_lt_of_le Nat.one_pos (Nat.le_max_right _ _), rfl, by simp [empty, names], by simp [empty]⟩

namespace Remembers

theorem isProper (h : c.Remembers used calls) : c.IsProper := by
  have hroom : c.names.length ≤ c.capacity := by
    rw [h.names]
    exact List.length_take_le _ _
  refine ⟨?_, ?_⟩
  · rw [h.names]
    exact (nodup_eraseDups used).sublist (List.take_sublist _ _)
  · rwa [StubCache.names, List.length_map] at hroom

/-- An insert is a use: its entry goes to the front, and where there is no room the last one goes. -/
theorem put (h : c.Remembers used calls) (file : StubFile) (fingerprint : String) :
    (c.put (.ofFile file fingerprint)).Remembers (file.typeName :: used) (.insert file fingerprint :: calls) := by
  refine ⟨h.capacity, h.dir?, ?_, fun e he => ?_⟩
  · have hnames : (c.put (.ofFile file fingerprint)).names =
        (file.typeName :: c.names.filter (· != file.typeName)).take c.capacity := by
      rw [StubCache.names, StubCache.put, List.map_take, names_moveToFront]
      rfl
    rw [hnames, h.names]
    exact (take_eraseDups_cons _ _ h.capacity).symm
  · rcases List.mem_cons.mp (List.mem_of_mem_take he) with rfl | he
    · simp [lastInsert?, CacheCall.insertedFor?, CacheEntry.ofFile]
    · obtain ⟨hmem, hother⟩ := List.mem_filter.mp he
      have hne : ¬file.typeName = e.typeName := fun heq => bne_iff_ne.mp hother heq.symm
      rw [lastInsert?, List.findSome?_cons, CacheCall.insertedFor?, if_neg hne]
      exact h.latest e hmem

/-- A lookup that finds an entry is a use, whether it answers or not. -/
theorem get_found (h : c.Remembers used calls) (hfind : (c.find? name).isSome) (fingerprint : String) :
    (c.get name fingerprint).2.Remembers (name :: used) (.get name fingerprint :: calls) := by
  obtain ⟨e, he⟩ := Option.isSome_iff_exists.mp hfind
  obtain ⟨-, rfl⟩ := of_find?_eq_some he
  have hperm := h.isProper.perm_get e.typeName fingerprint
  rw [StubCache.get, he] at hperm ⊢
  refine ⟨h.capacity, h.dir?, ?_, fun f hf => h.latest f (hperm.mem_iff.mp hf)⟩
  -- All entries stay, so nothing is cut off.
  have hroom : (moveToFront e c.entries).length ≤ c.capacity := hperm.length_eq ▸ h.isProper.room
  have hnames := names_moveToFront e c.entries
  rw [take_eraseDups_cons _ _ h.capacity, ← h.names, StubCache.names, StubCache.names, ← hnames, List.take_of_length_le]
  rwa [List.length_map]

theorem get_missed (h : c.Remembers used calls) (hfind : ¬(c.find? name).isSome) (fingerprint : String) :
    (c.get name fingerprint).2.Remembers used (.get name fingerprint :: calls) := by
  rw [StubCache.get, Option.not_isSome_iff_eq_none.mp hfind]
  exact ⟨h.capacity, h.dir?, h.names, h.latest⟩

theorem clear (h : c.Remembers used calls) : ({ c with entries := [] } : StubCache).Remembers [] (.clear :: calls) :=
  ⟨h.capacity, h.dir?, by simp [StubCache.names], fun _ he => absurd he List.not_mem_nil⟩

/-- **Each call keeps the invariant**, and the disk as well. -/
theorem perform (h : c.Remembers used calls) (disk : Disk) (call : CacheCall) : (call.perform c disk).2 = disk ∧
    (call.perform c disk).1.capacity = c.capacity ∧
      (call.perform c disk).1.Remembers (call.usesWith c used) (call :: calls) := by
  cases call with
  | insert file fingerprint =>
    rw [CacheCall.perform, insert_of_no_dir h.dir?]
    exact ⟨rfl, rfl, h.put file fingerprint⟩
  | get name fingerprint =>
    refine ⟨rfl, get_capacity c name fingerprint, ?_⟩
    rw [CacheCall.perform, CacheCall.usesWith]
    split
    next hfind => exact h.get_found hfind fingerprint
    next hfind => exact h.get_missed hfind fingerprint
  | clear =>
    rw [CacheCall.perform, clear_of_no_dir h.dir?]
    exact ⟨rfl, rfl, h.clear⟩

/-- What is answered for a type is what was inserted for it last. -/
theorem get_eq_some_iff (h : c.Remembers used calls) {file : StubFile} : (c.get name fingerprint).1 = some file ↔
    name ∈ c.names ∧ lastInsert? calls name = some (file, fingerprint) := by
  constructor
  · intro hget
    obtain ⟨e, he, rfl, rfl, rfl⟩ := of_get_eq_some hget
    exact ⟨mem_names.mpr ⟨e, he, rfl⟩, h.latest e he⟩
  · rintro ⟨hname, hlast⟩
    obtain ⟨e, he, rfl⟩ := mem_names.mp hname
    rw [h.latest e he, Option.some.injEq, Prod.mk.injEq] at hlast
    obtain ⟨rfl, rfl⟩ := hlast
    exact h.isProper.get_eq_some he

end Remembers

/-- The invariant holds behind all calls. -/
theorem remembers_afterCalls (capacity : Nat) (disk : Disk) (calls : List CacheCall) :
    (afterCalls capacity disk calls).2 = disk ∧ (afterCalls capacity disk calls).1.capacity = max capacity 1 ∧
      (afterCalls capacity disk calls).1.Remembers (uses capacity disk calls) calls := by
  induction calls with
  | nil => exact ⟨rfl, rfl, remembers_empty capacity⟩
  | cons call before ih =>
    obtain ⟨hdisk, hcapacity, hremembers⟩ := ih
    obtain ⟨hdisk', hcapacity', hremembers'⟩ := hremembers.perform (afterCalls capacity disk before).2 call
    exact ⟨hdisk'.trans hdisk, hcapacity'.trans hcapacity, hremembers'⟩

/-- **A cache holds what was used last.** It has room for so many types, and for one at least; those in it are the ones
that were used last since it was cleared, and a lookup answers exactly with what was inserted last for one of them. -/
theorem holds_latest_uses (capacity : Nat) (disk : Disk) (calls : List CacheCall) :
    let c := (afterCalls capacity disk calls).1
    let recent := (uses capacity disk calls).eraseDups.take (max capacity 1)
    c.size ≤ max capacity 1 ∧ c.names = recent ∧ (afterCalls capacity disk calls).2 = disk ∧
      ∀ name fingerprint file, (c.get name fingerprint).1 = some file ↔
        name ∈ recent ∧ lastInsert? calls name = some (file, fingerprint) := by
  intro c recent
  obtain ⟨hdisk, hcapacity, hremembers⟩ := remembers_afterCalls capacity disk calls
  have hnames : c.names = recent := by
    rw [hremembers.names, hcapacity]
  refine ⟨hcapacity ▸ hremembers.isProper.room, hnames, hdisk, fun name fingerprint file => ?_⟩
  rw [← hnames]
  exact hremembers.get_eq_some_iff

/-- A lookup with another fingerprint is a use as well, so of two types the one that was not looked up has to go. -/
example :
    let insert := fun name => CacheCall.insert { (default : StubFile) with typeName := name } "1"
    (afterCalls 2 ⟨[], []⟩ [insert "Third", .get "First" "2", insert "Second", insert "First"]).1.names =
      ["Third", "First"] := by decide

end StubCache

end ContractStubs
