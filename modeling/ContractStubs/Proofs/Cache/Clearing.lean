import ContractStubs.Proofs.Cache.Directory
import ContractStubs.Proofs.Cache.Recency
import ContractStubs.Proofs.Samples

/-!
# What clearing a cache removes

A cache takes its directory for its own: clearing it removes the directory with all that is in it, whoever put it there,
and touches nothing outside (`StubCache.clear_removes_directory`). This is about disks without links: of a directory that
is reached over a link only the link would go. The cache itself only ever writes files under the digests of types that
were inserted or loaded, so every other file that goes was put into the directory by others. This is an invariant of all
that can happen to a cache and its disk (`StubCache.Owns.perform`).
-/

namespace ContractStubs

/-! ## What can happen -/

/-- Something that happens to a cache or to the disk. -/
inductive CacheEvent where
  | call (call : CacheCall)
  /-- All entries are written to the directory. -/
  | save
  /-- The directory is read. -/
  | load
  /-- Others change the disk, so that this is on it. -/
  | changed (nodes : List (Place × DiskNode))
  deriving Repr

namespace CacheEvent

/-- The cache and the disk behind an event; a cache that cannot be loaded stays as it is. -/
def perform (c : StubCache) (disk : Disk) : CacheEvent → StubCache × Disk
  | call k => k.perform c disk
  | save => (c, (c.save disk).2)
  | load => ((c.load disk).toOption.getD c, disk)
  | changed nodes => (c, { disk with nodes })

/-- The types that are inserted or loaded by an event to a cache. -/
def namesWith (c : StubCache) (disk : Disk) : CacheEvent → List String
  | call (.insert file _) => [file.typeName]
  | load => ((c.load disk).toOption.getD c).names
  | _ => []

/-- The disk that others leave by an event. -/
def leftWith (disk : Disk) : CacheEvent → List Disk
  | changed nodes => [{ disk with nodes }]
  | _ => []

end CacheEvent

namespace StubCache

/-- A new cache with a directory, and the disk, behind some events, of which the latest is the first. -/
def afterEvents (capacity : Nat) (directory : String) (disk : Disk) : List CacheEvent → StubCache × Disk
  | [] => (.empty capacity (some directory), disk)
  | event :: before =>
    let (c, disk) := afterEvents capacity directory disk before
    event.perform c disk

/-- The types that were inserted or loaded. -/
def namesIn (capacity : Nat) (directory : String) (disk : Disk) : List CacheEvent → List String
  | [] => []
  | event :: before =>
    let (c, disk') := afterEvents capacity directory disk before
    event.namesWith c disk' ++ namesIn capacity directory disk before

/-- What others left on the disk: what was on it at first, and what was on it whenever they had changed it. -/
def leftByOthers (disk : Disk) : List CacheEvent → List Disk
  | [] => [disk]
  | event :: before => event.leftWith disk ++ leftByOthers disk before

variable {c c' : StubCache} {disk disk' : Disk} {directory : String} {e : CacheEntry} {names : List String}
  {others : List Disk}

/-! ## Files that are written -/

/-- All files on the other disk were on this one, or have the name of the file for one of some types, in the directory. -/
structure WritesOnly (disk other : Disk) (directory : String) (names : List String) : Prop where
  workingDirectory : other.workingDirectory = disk.workingDirectory
  files : ∀ q content, other.node? q = some (.file content) →
    disk.node? q = some (.file content) ∨ ∃ name ∈ names, q = disk.placeOf directory ++ [CacheEntry.fileName name]

theorem placeOf_of_workingDirectory (h : disk'.workingDirectory = disk.workingDirectory) (path : String) :
    disk'.placeOf path = disk.placeOf path := by
  rw [Disk.placeOf, Disk.placeOf, Disk.origin, Disk.origin, h]

namespace WritesOnly

variable {disk₁ disk₂ disk₃ : Disk}

theorem refl : WritesOnly disk disk directory names := ⟨rfl, fun _ _ h => .inl h⟩

theorem trans (h : WritesOnly disk₁ disk₂ directory names) (h' : WritesOnly disk₂ disk₃ directory names) :
    WritesOnly disk₁ disk₃ directory names := by
  refine ⟨h'.workingDirectory.trans h.workingDirectory, fun q content hq => ?_⟩
  rcases h'.files q content hq with hq | ⟨name, hname, hplace⟩
  · exact h.files q content hq
  · exact .inr ⟨name, hname, hplace.trans (by rw [placeOf_of_workingDirectory h.workingDirectory])⟩

/-- Directories are no files. -/
theorem of_makesDirectories (h : disk.MakesDirectories disk') : WritesOnly disk disk' directory names := by
  refine ⟨h.keeps.workingDirectory, fun q content hq => .inl ?_⟩
  rcases List.eq_nil_or_concat q with rfl | ⟨place, name, rfl⟩
  · cases hq
  · rw [List.concat_eq_append] at hq ⊢
    rcases h.node?_eq place name with hsame | ⟨hnew, -⟩
    · rwa [hsame] at hq
    · cases hnew.symm.trans hq

/-- What is removed writes nothing. -/
theorem of_empties {place : Place} (h : disk.Empties disk' place) : WritesOnly disk disk' directory names :=
  ⟨h.workingDirectory, fun _ _ hq => .inl (h.node?_of_some hq)⟩

/-- **An entry is written into the file for its type, if anywhere.** -/
theorem save (he : e.typeName ∈ names) : WritesOnly disk (e.save disk directory).2 directory names := by
  have hmakes := Disk.makesDirectories_createDirectories disk directory
  rw [CacheEntry.save]
  rcases hmade : disk.createDirectories directory with ⟨fault | _, made⟩
  · rw [hmade] at hmakes
    exact of_makesDirectories hmakes
  · rw [hmade] at hmakes
    have hmade' : WritesOnly disk made directory names := of_makesDirectories hmakes
    dsimp only
    cases hwritten : made.writeText (Path.join directory (CacheEntry.fileName e.typeName)) e.toJson.toPretty with
    | error fault => exact hmade'
    | ok other =>
      obtain ⟨-, -, -, -, rfl⟩ := Disk.of_writeText_join (CacheEntry.isPlainName_fileName _) hwritten
      refine hmade'.trans ⟨rfl, fun q content hq => ?_⟩
      rw [Disk.node?_put] at hq
      split at hq
      next hplace => exact .inr ⟨e.typeName, he, hplace⟩
      next => exact .inl hq

theorem saveEntry (hdir : c.dir? = some directory) (he : e.typeName ∈ names) :
    WritesOnly disk (c.saveEntry disk e).2 directory names := by
  rw [StubCache.saveEntry, hdir]
  exact save he

theorem saveEntries (hdir : c.dir? = some directory) : ∀ {es : List CacheEntry} {disk : Disk},
    (∀ e ∈ es, e.typeName ∈ names) → WritesOnly disk (c.saveEntries es disk).2 directory names
  | [], _, _ => refl
  | e :: es, disk, hes => by
    obtain ⟨he, hes⟩ := List.forall_mem_cons.mp hes
    have hfirst : WritesOnly disk (c.saveEntry disk e).2 directory names := saveEntry hdir he
    rw [StubCache.saveEntries]
    rcases hsaved : c.saveEntry disk e with ⟨failure | _, disk'⟩
    · rwa [hsaved] at hfirst
    · rw [hsaved] at hfirst
      exact hfirst.trans (saveEntries hdir hes)

theorem insert (hdir : c.dir? = some directory) {file : StubFile} {fingerprint : String}
    (hname : file.typeName ∈ names) : WritesOnly disk (c.insert disk file fingerprint).2.2 directory names := by
  have hsave : WritesOnly disk (c.saveEntry disk (.ofFile file fingerprint)).2 directory names := saveEntry hdir hname
  rw [StubCache.insert]
  rcases hsaved : c.saveEntry disk (.ofFile file fingerprint) with ⟨failure | _, disk'⟩ <;> rwa [hsaved] at hsave

end WritesOnly

/-! ## Clearing -/

theorem clear_entries (c : StubCache) (disk : Disk) : (c.clear disk).2.1 = { c with entries := [] } := by
  unfold clear
  split
  · rfl
  · split <;> rfl

/-- A cache whose directory is there removes it, or all that is in it. -/
theorem empties_clear {place : Place} (hdir : c.dir? = some directory)
    (h : disk.find directory = .ok (place, .directory)) : disk.Empties (c.clear disk).2.2 place ∧
      ((c.clear disk).1 = .ok () → place ≠ [] → (c.clear disk).2.2.node? place = none) := by
  have hexists : disk.exists? directory = true := by
    rw [Disk.exists?, h]
    rfl
  have hremoved := Disk.empties_removeDirectory h
  rw [clear, hdir]
  dsimp only
  rw [if_pos hexists]
  rcases hremove : disk.removeDirectory directory with ⟨fault | _, other⟩
  · rw [hremove] at hremoved
    exact ⟨hremoved.1, fun hok => by cases hok⟩
  · rw [hremove] at hremoved
    exact ⟨hremoved.1, fun _ => hremoved.2 rfl⟩

/-- A cache without a directory on the disk removes nothing. -/
theorem clear_of_no_directory (hdir : c.dir? = some directory)
    (h : ∀ place, disk.find directory ≠ .ok (place, .directory)) : (c.clear disk).2.2 = disk := by
  rw [clear, hdir]
  dsimp only
  split
  · exact Disk.removeDirectory_of_no_directory h
  · rfl

theorem writesOnly_clear (hdir : c.dir? = some directory) :
    WritesOnly disk (c.clear disk).2.2 directory names := by
  by_cases h : ∃ place, disk.find directory = .ok (place, .directory)
  · obtain ⟨place, hplace⟩ := h
    exact .of_empties (empties_clear hdir hplace).1
  · rw [clear_of_no_directory hdir fun place hplace => h ⟨place, hplace⟩]
    exact .refl

/-! ## The invariant -/

theorem dir?_load (h : c.dir? = some directory) : ((c.load disk).toOption.getD c).dir? = some directory := by
  rw [load, h]
  dsimp only
  split
  · cases disk.readDirectory directory with
    | error fault => exact h
    | ok names => exact (dir?_foldl_put _ c).trans h
  · exact h

/-- The cache has the directory, and its entries are for some of the types. All files on the disk were left by others,
or have the name of the file for one of these types, in the directory. -/
structure Owns (c : StubCache) (disk : Disk) (directory : String) (names : List String) (others : List Disk) : Prop where
  dir? : c.dir? = some directory
  entries : ∀ e ∈ c.entries, e.typeName ∈ names
  files : ∀ q content, disk.node? q = some (.file content) → (∃ other ∈ others, other.node? q = some (.file content)) ∨
    ∃ name ∈ names, q = disk.placeOf directory ++ [CacheEntry.fileName name]

namespace Owns

/-- What is written under these names is the cache's own. -/
theorem of_writesOnly (more : List String) (h : c.Owns disk directory names others) (hdir : c'.dir? = some directory)
    (hentries : ∀ e ∈ c'.entries, e.typeName ∈ more ++ names)
    (hwrites : WritesOnly disk disk' directory (more ++ names)) : c'.Owns disk' directory (more ++ names) others := by
  refine ⟨hdir, hentries, fun q content hq => ?_⟩
  rw [placeOf_of_workingDirectory hwrites.workingDirectory]
  rcases hwrites.files q content hq with hq | hown
  · refine (h.files q content hq).imp_right ?_
    rintro ⟨name, hname, hplace⟩
    exact ⟨name, List.mem_append_right _ hname, hplace⟩
  · exact .inr hown

/-- The cache may come to hold other entries, and more names may count. -/
theorem of_entries (more : List String) (h : c.Owns disk directory names others) (hdir : c'.dir? = some directory)
    (hentries : ∀ e ∈ c'.entries, e.typeName ∈ more ++ names) : c'.Owns disk directory (more ++ names) others :=
  h.of_writesOnly more hdir hentries .refl

theorem insert (h : c.Owns disk directory names others) (file : StubFile) (fingerprint : String) :
    (c.insert disk file fingerprint).2.1.Owns (c.insert disk file fingerprint).2.2 directory
      ([file.typeName] ++ names) others := by
  refine h.of_writesOnly [file.typeName] ?_ (fun e he => ?_) (.insert h.dir? (List.mem_append_left _ List.mem_cons_self))
  · rw [StubCache.insert]
    split <;> exact h.dir?
  · rcases of_mem_insert he with rfl | he
    · exact List.mem_append_left _ List.mem_cons_self
    · exact List.mem_append_right _ (h.entries e he)

theorem clear (h : c.Owns disk directory names others) :
    (c.clear disk).2.1.Owns (c.clear disk).2.2 directory names others := by
  rw [clear_entries]
  exact h.of_writesOnly [] h.dir? (fun e he => nomatch he) (writesOnly_clear h.dir?)

/-- **Each event keeps the invariant.** -/
theorem perform (h : c.Owns disk directory names others) (first : Disk) (event : CacheEvent) :
    (event.perform c disk).1.Owns (event.perform c disk).2 directory (event.namesWith c disk ++ names)
      (event.leftWith first ++ others) := by
  cases event with
  | call k =>
    cases k with
    | insert file fingerprint => exact h.insert file fingerprint
    | get name fingerprint =>
      exact h.of_entries [] ((get_dir? c name fingerprint).trans h.dir?) fun e he =>
        h.entries e (mem_of_mem_get he)
    | clear => exact h.clear
  | save => exact h.of_writesOnly [] h.dir? h.entries (.saveEntries h.dir? h.entries)
  | load =>
    exact h.of_entries _ (dir?_load h.dir?) fun e he => List.mem_append_left _ (mem_names.mpr ⟨e, he, rfl⟩)
  | changed nodes => exact ⟨h.dir?, h.entries, fun q content hq => .inl ⟨_, List.mem_cons_self, hq⟩⟩

end Owns

theorem workingDirectory_perform (h : c.dir? = some directory) (event : CacheEvent) :
    (event.perform c disk).2.workingDirectory = disk.workingDirectory := by
  cases event with
  | call k =>
    cases k with
    | insert file fingerprint => exact (WritesOnly.insert h (List.mem_singleton.mpr rfl)).workingDirectory
    | get name fingerprint => rfl
    | clear => exact (writesOnly_clear h : WritesOnly disk _ directory []).workingDirectory
  | save => exact (WritesOnly.saveEntries h fun e he => mem_names.mpr ⟨e, he, rfl⟩).workingDirectory
  | load => rfl
  | changed nodes => rfl

/-- The invariant holds behind all events. -/
theorem owns_afterEvents (capacity : Nat) (directory : String) (disk : Disk) (events : List CacheEvent) :
    (afterEvents capacity directory disk events).2.workingDirectory = disk.workingDirectory ∧
      (afterEvents capacity directory disk events).1.Owns (afterEvents capacity directory disk events).2 directory
        (namesIn capacity directory disk events) (leftByOthers disk events) := by
  induction events with
  | nil =>
    exact ⟨rfl, rfl, fun e he => absurd he List.not_mem_nil, fun q content hq => .inl ⟨disk, List.mem_cons_self, hq⟩⟩
  | cons event before ih =>
    obtain ⟨hdirectory, howns⟩ := ih
    exact ⟨(workingDirectory_perform howns.dir? event).trans hdirectory, howns.perform disk event⟩

/-- **On a disk without links, clearing a cache removes its directory, and nothing else.** All entries in memory go, all
that is in the directory goes, and everything outside is left as it was; where there is no such directory, the disk stays
as it is. What goes was written by the cache, under the digest of a type that was inserted or loaded, or was put there by
others. -/
theorem clear_removes_directory (capacity : Nat) (directory : String) (disk : Disk) (events : List CacheEvent) :
    let c := (afterEvents capacity directory disk events).1
    let before := (afterEvents capacity directory disk events).2
    let after := (c.clear before).2.2
    let place := disk.placeOf directory
    (c.clear before).2.1.isEmpty = true ∧
    (∀ q, ¬place <+: q → after.node? q = before.node? q) ∧
    (∀ found, before.find directory = .ok (found, .directory) →
      (∀ name below, after.node? (place ++ name :: below) = none) ∧
      ((c.clear before).1 = .ok () → place ≠ [] → after.node? place = none)) ∧
    ((∀ found, before.find directory ≠ .ok (found, .directory)) → after = before) ∧
    ∀ below content, before.node? (place ++ below) = some (.file content) →
      (∃ name ∈ namesIn capacity directory disk events, below = [CacheEntry.fileName name]) ∨
        ∃ other ∈ leftByOthers disk events, other.node? (place ++ below) = some (.file content) := by
  intro c before after place
  obtain ⟨hdirectory, howns⟩ := owns_afterEvents capacity directory disk events
  have hplace : before.placeOf directory = place := placeOf_of_workingDirectory hdirectory directory
  have hcleared : ∀ found, before.find directory = .ok (found, .directory) → before.Empties after place ∧
      ((c.clear before).1 = .ok () → place ≠ [] → after.node? place = none) := by
    intro found hfound
    obtain rfl : found = place := (Disk.eq_placeOf_of_find hfound).trans hplace
    exact empties_clear howns.dir? hfound
  refine ⟨?_, fun q hq => ?_, fun found hfound => ?_, clear_of_no_directory howns.dir?, fun below content hfile => ?_⟩
  · rw [clear_entries]
    rfl
  · by_cases hfound : ∃ found, before.find directory = .ok (found, .directory)
    · obtain ⟨found, hfound⟩ := hfound
      exact (hcleared found hfound).1.outside q hq
    · rw [show after = before from clear_of_no_directory howns.dir? fun found h => hfound ⟨found, h⟩]
  · obtain ⟨hempties, hself⟩ := hcleared found hfound
    exact ⟨hempties.below, hself⟩
  · rcases howns.files _ content hfile with hother | ⟨name, hname, he⟩
    · exact .inr hother
    · rw [show (afterEvents capacity directory disk events).2.placeOf directory = place from hplace] at he
      exact .inl ⟨name, hname, List.append_cancel_left he⟩

/-- A disk with notes at some place. -/
def notesAt (nodes : List (Place × DiskNode)) (place : Place) : Disk :=
  ⟨nodes ++ [(place, .file (.text "keep"))], []⟩

/-- A file is inserted, and all entries are written once more. -/
def insertAndSave : List CacheEvent := [.save, .call (.insert (someFile "Data.A" "") "1")]

/-- A directory that was not there holds nothing but entries, and goes; notes outside stay. -/
theorem new_directory_removed :
    ∃ c before, afterEvents 8 "/units" (notesAt [] ["notes.txt"]) insertAndSave = (c, before) ∧
      (c.clear before).2.1.isEmpty = true ∧ before.node? ["units", CacheEntry.fileName "Data.A"] ≠ none ∧
      (c.clear before).2.2.node? ["units", CacheEntry.fileName "Data.A"] = none ∧
      (c.clear before).2.2.node? ["notes.txt"] = some (.file (.text "keep")) ∧
      ∀ below content, before.node? ("units" :: below) = some (.file content) →
        below = [CacheEntry.fileName "Data.A"] := by
  have hplace : (notesAt [] ["notes.txt"]).placeOf "/units" = ["units"] := by decide +kernel
  have hnames : namesIn 8 "/units" (notesAt [] ["notes.txt"]) insertAndSave = ["Data.A"] := by decide +kernel
  have hbefore : (afterEvents 8 "/units" (notesAt [] ["notes.txt"]) insertAndSave).2.find "/units" =
        .ok (["units"], .directory) ∧
      (afterEvents 8 "/units" (notesAt [] ["notes.txt"]) insertAndSave).2.node? ["units", CacheEntry.fileName "Data.A"] ≠
        none ∧
      (afterEvents 8 "/units" (notesAt [] ["notes.txt"]) insertAndSave).2.node? ["notes.txt"] =
        some (.file (.text "keep")) := by decide +kernel
  obtain ⟨hmemory, houtside, hinside, -, hfiles⟩ :=
    clear_removes_directory 8 "/units" (notesAt [] ["notes.txt"]) insertAndSave
  rcases hrun : afterEvents 8 "/units" (notesAt [] ["notes.txt"]) insertAndSave with ⟨c, before⟩
  rw [hrun] at hbefore hmemory houtside hinside hfiles
  rw [hplace] at houtside hinside hfiles
  obtain ⟨hfind, hentry, hnotes⟩ := hbefore
  refine ⟨c, before, rfl, hmemory, hentry, (hinside ["units"] hfind).1 (CacheEntry.fileName "Data.A") [],
    (houtside ["notes.txt"] (by decide)).trans hnotes, fun below content hfile => ?_⟩
  rcases hfiles below content hfile with ⟨name, hname, he⟩ | ⟨other, hother, hfile⟩
  · rw [hnames] at hname
    rwa [List.mem_singleton.mp hname] at he
  · obtain rfl := List.mem_singleton.mp hother
    have hnone : (notesAt [] ["notes.txt"]).node? ("units" :: below) = none := by
      simp [notesAt, Disk.node?, List.lookup_cons]
    cases hnone.symm.trans hfile

/-- Notes in the directory are no entry, and go with it. -/
theorem notes_in_directory_removed :
    let c := (afterEvents 8 "/units" (notesAt [(["units"], .directory)] ["units", "notes.txt"]) insertAndSave).1
    let before := (afterEvents 8 "/units" (notesAt [(["units"], .directory)] ["units", "notes.txt"]) insertAndSave).2
    (∀ name, CacheEntry.fileName name ≠ "notes.txt") ∧
      before.node? ["units", "notes.txt"] = some (.file (.text "keep")) ∧ (c.clear before).1.isOk = true ∧
      (c.clear before).2.2.node? ["units", "notes.txt"] = none := by
  refine ⟨fun name he => ?_, by decide +kernel, by decide +kernel, by decide +kernel⟩
  have hlast := congrArg (fun text => text.toList.getLast?) he
  rw [CacheEntry.fileName] at hlast
  simp at hlast

end StubCache

end ContractStubs
