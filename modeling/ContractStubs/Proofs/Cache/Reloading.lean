import ContractStubs.Proofs.Cache.Directory
import ContractStubs.Proofs.Cache.Entries
import ContractStubs.Proofs.Samples
import ContractStubs.Proofs.Text.Order
import Mathlib.Data.List.Dedup
import Mathlib.Data.List.Find
import Mathlib.Data.List.Perm.Subperm

/-!
# A cache is loaded from its directory

After files were inserted into a cache with a directory where there was nothing before, a new cache on that directory
loads what was inserted last for each type, those included that the first cache had no room for
(`StubCache.reloads_inserted`). The directory holds the latest entries after each insert
(`StubCache.holdsLatest_insertAll`), and entries of which no two are for one type all enter a cache that has room for
their types (`StubCache.IsProper.foldl_put_of_room`).
-/

namespace ContractStubs

namespace StubCache

variable {c c' : StubCache} {disk disk' : Disk} {directory : String} {e : CacheEntry}

/-! ## Inserting -/

/-- Files inserted one after the other, up to the first one that fails. -/
def insertAll (c : StubCache) (disk : Disk) : List (StubFile × String) → Except Failure Unit × StubCache × Disk
  | [] => (.ok (), c, disk)
  | (file, fingerprint) :: inserts =>
    match c.insert disk file fingerprint with
    | (.error failure, c, disk) => (.error failure, c, disk)
    | (.ok (), c, disk) => insertAll c disk inserts

/-- The entries of inserted files, the latest first. -/
def history (inserts : List (StubFile × String)) : List CacheEntry :=
  (inserts.map fun (file, fingerprint) => .ofFile file fingerprint).reverse

/-- The types that files were inserted for. -/
def typeNames (inserts : List (StubFile × String)) : List String := inserts.map fun insert => insert.1.typeName

/-- The file that was inserted last for a type, and its fingerprint. -/
def lastInserted? (inserts : List (StubFile × String)) (name : String) : Option (StubFile × String) :=
  inserts.reverse.find? fun insert => insert.1.typeName == name

/-- The entry that was inserted last for a type. -/
def lastEntryOf? (inserts : List (StubFile × String)) (name : String) : Option CacheEntry :=
  (lastInserted? inserts name).map fun (file, fingerprint) => .ofFile file fingerprint

/-- A file that is inserted has been saved in the directory. -/
theorem of_insert_eq_ok {file : StubFile} {fingerprint : String} (hdir : c.dir? = some directory)
    (h : c.insert disk file fingerprint = (.ok (), c', disk')) :
    c'.dir? = some directory ∧ (CacheEntry.ofFile file fingerprint).save disk directory = (.ok (), disk') := by
  rw [insert, saveEntry, hdir] at h
  dsimp only at h
  split at h
  next => simp at h
  next hsave =>
    simp only [Prod.mk.injEq, true_and] at h
    obtain ⟨rfl, rfl⟩ := h
    exact ⟨hdir, hsave⟩

/-- **After every insert the directory holds the latest entries.** -/
theorem holdsLatest_insertAll : ∀ {inserts : List (StubFile × String)} {c : StubCache} {disk : Disk}
    {written : List CacheEntry}, c.dir? = some directory → disk.HoldsLatest directory written →
      c.insertAll disk inserts = (.ok (), c', disk') → disk'.HoldsLatest directory (history inserts ++ written)
  | [], _, _, _, _, hholds, h => by
    obtain ⟨-, -, rfl⟩ : True ∧ _ ∧ _ := by simpa [insertAll] using h
    exact hholds
  | (file, fingerprint) :: inserts, c, disk, written, hdir, hholds, h => by
    rw [insertAll] at h
    split at h
    next => simp at h
    next next disk₁ hinsert =>
      obtain ⟨hdir', hsave⟩ := of_insert_eq_ok hdir hinsert
      have hrest := holdsLatest_insertAll hdir' (hholds.save hsave).1 h
      simpa [history] using hrest

/-! ## Loading -/

/-- No two entries are for one type. -/
def Agree (es : List CacheEntry) : Prop := ∀ e ∈ es, ∀ f ∈ es, e.typeName = f.typeName → e = f

/-- An entry enters where there is room for its type, and nothing leaves. -/
theorem IsProper.put_of_room {names : List String} (h : c.IsProper) (hagree : Agree (e :: c.entries))
    (hnames : ∀ f ∈ e :: c.entries, f.typeName ∈ names) (hroom : names.length ≤ c.capacity) :
    (c.put e).IsProper ∧ ∀ f, f ∈ (c.put e).entries ↔ f ∈ e :: c.entries := by
  have hnodup : ((moveToFront e c.entries).map (·.typeName)).Nodup := by
    rw [moveToFront, List.map_cons, List.nodup_cons]
    refine ⟨fun hmem => ?_, h.names.sublist (List.filter_sublist.map _)⟩
    obtain ⟨f, hf, hname⟩ := List.mem_map.mp hmem
    simpa [hname] using (List.mem_filter.mp hf).2
  have hsub : (moveToFront e c.entries).map (·.typeName) ⊆ names := by
    intro name hname
    obtain ⟨f, hf, rfl⟩ := List.mem_map.mp hname
    exact hnames f (List.mem_cons.mpr (mem_of_mem_moveToFront hf))
  have hlength : (moveToFront e c.entries).length ≤ c.capacity := by
    have hle := (List.subperm_of_subset hnodup hsub).length_le
    rw [List.length_map] at hle
    omega
  have hentries : (c.put e).entries = moveToFront e c.entries := List.take_of_length_le hlength
  refine ⟨⟨?_, ?_⟩, fun f => ?_⟩
  · rw [StubCache.names, hentries]
    exact hnodup
  · rw [size, hentries]
    exact hlength
  · rw [hentries, moveToFront, List.mem_cons, List.mem_cons, List.mem_filter, bne_iff_ne]
    refine or_congr_right' fun hne => ⟨And.left, fun hf => ⟨hf, fun hname => hne ?_⟩⟩
    exact hagree f (List.mem_cons_of_mem _ hf) e List.mem_cons_self hname

/-- **Entries of which no two are for one type all enter, if there is room for their types.** -/
theorem IsProper.foldl_put_of_room {names : List String} : ∀ {es : List CacheEntry} {c : StubCache}, c.IsProper →
    Agree (c.entries ++ es) → (∀ f ∈ c.entries ++ es, f.typeName ∈ names) → names.length ≤ c.capacity →
      (es.foldl StubCache.put c).IsProper ∧ ∀ f, f ∈ (es.foldl StubCache.put c).entries ↔ f ∈ c.entries ++ es
  | [], c, h, _, _, _ => ⟨h, by simp⟩
  | e :: es, c, h, hagree, hnames, hroom => by
    have hfront : ∀ f ∈ e :: c.entries, f ∈ c.entries ++ e :: es := by
      intro f hf
      rcases List.mem_cons.mp hf with rfl | hf
      · simp
      · simp [hf]
    obtain ⟨hproper, hmem⟩ := h.put_of_room (fun f hf g hg => hagree f (hfront f hf) g (hfront g hg))
      (fun f hf => hnames f (hfront f hf)) hroom
    have hsame : ∀ f, f ∈ (c.put e).entries ++ es ↔ f ∈ c.entries ++ e :: es := by
      intro f
      simp only [List.mem_append, hmem, List.mem_cons]
      tauto
    obtain ⟨hall, hfinal⟩ := hproper.foldl_put_of_room
      (fun f hf g hg => hagree f ((hsame f).mp hf) g ((hsame g).mp hg)) (fun f hf => hnames f ((hsame f).mp hf)) hroom
    exact ⟨hall, fun f => (hfinal f).trans (hsame f)⟩

/-- What a cache answers is the file of the entry for the type, if the fingerprint is its own. -/
theorem IsProper.get_of_mem (h : c.IsProper) (he : e ∈ c.entries) (fingerprint : String) :
    (c.get e.typeName fingerprint).1 = if e.fingerprint = fingerprint then some e.file else none := by
  rw [get, h.find?_eq_some he]

/-! ## Entries inserted last -/

section Last

variable {inserts : List (StubFile × String)} {name : String}

theorem find?_history (inserts : List (StubFile × String)) (name : String) :
    (history inserts).find? (fun e => e.typeName == name) = lastEntryOf? inserts name := by
  rw [history, lastEntryOf?, lastInserted?, ← List.map_reverse, List.find?_map]
  rfl

theorem mem_typeNames_iff : name ∈ typeNames inserts ↔ ∃ e ∈ history inserts, e.typeName = name := by
  simp [typeNames, history, CacheEntry.ofFile]

theorem of_lastEntryOf?_eq_some (h : lastEntryOf? inserts name = some e) :
    e.typeName = name ∧ name ∈ typeNames inserts := by
  rw [← find?_history] at h
  have hname : e.typeName = name := by simpa using List.find?_some h
  exact ⟨hname, mem_typeNames_iff.mpr ⟨e, List.mem_of_find?_eq_some h, hname⟩⟩

theorem exists_lastEntryOf? (h : name ∈ typeNames inserts) : ∃ e, lastEntryOf? inserts name = some e := by
  obtain ⟨e, he, rfl⟩ := mem_typeNames_iff.mp h
  rw [← find?_history]
  cases hfind : (history inserts).find? fun f => f.typeName == e.typeName with
  | none => exact absurd (beq_self_eq_true _) (List.find?_eq_none.mp hfind e he)
  | some last => exact ⟨last, rfl⟩

/-- What a cache with the entries that were inserted last answers. -/
theorem IsProper.answers (h : c.IsProper) (hmem : ∀ e, e ∈ c.entries ↔ lastEntryOf? inserts e.typeName = some e) :
    c.names.Nodup ∧ (∀ name, name ∈ c.names ↔ name ∈ typeNames inserts) ∧
      ∀ name fingerprint, (c.get name fingerprint).1 =
        (lastInserted? inserts name).bind fun (file, f) => if f = fingerprint then some file else none := by
  have hnames : ∀ name, name ∈ c.names ↔ name ∈ typeNames inserts := by
    intro name
    rw [mem_names]
    constructor
    · rintro ⟨e, he, rfl⟩
      exact (of_lastEntryOf?_eq_some ((hmem e).mp he)).2
    · intro hname
      obtain ⟨e, he⟩ := exists_lastEntryOf? hname
      obtain ⟨rfl, -⟩ := of_lastEntryOf?_eq_some he
      exact ⟨e, (hmem e).mpr he, rfl⟩
  refine ⟨h.names, hnames, fun name fingerprint => ?_⟩
  cases hlast : lastInserted? inserts name with
  | none =>
    refine get_eq_none fun hname => ?_
    obtain ⟨e, he⟩ := exists_lastEntryOf? ((hnames name).mp hname)
    rw [lastEntryOf?, hlast] at he
    cases he
  | some last =>
    obtain ⟨file, f⟩ := last
    have hentry : lastEntryOf? inserts name = some (.ofFile file f) := by
      rw [lastEntryOf?, hlast]
      rfl
    obtain ⟨rfl, -⟩ := of_lastEntryOf?_eq_some hentry
    exact h.get_of_mem ((hmem _).mpr hentry) fingerprint

end Last

/-! ## Reading the directory -/

section Directory

open Disk

variable {inserts : List (StubFile × String)} {name : String}

/-- No two types that files were inserted for have one digest. -/
def HasDigestsApart (inserts : List (StubFile × String)) : Prop :=
  ∀ a ∈ typeNames inserts, ∀ b ∈ typeNames inserts, md5 (textBytes a) = md5 (textBytes b) → a = b

/-- The latest entry under the name of the file for a type is the one that was inserted last for the type. -/
theorem HasDigestsApart.latest?_fileName (h : HasDigestsApart inserts) (hname : name ∈ typeNames inserts) :
    latest? (history inserts) (CacheEntry.fileName name) = lastEntryOf? inserts name := by
  rw [latest?, ← find?_history]
  refine List.find?_congr fun e he => ?_
  rw [Bool.eq_iff_iff, beq_iff_eq, beq_iff_eq]
  refine ⟨fun hsame => ?_, fun hsame => by rw [hsame]⟩
  exact h _ (mem_typeNames_iff.mpr ⟨e, he, rfl⟩) _ hname (CacheEntry.fileName_inj hsame)

/-- The entries that are read from the directory, in the order of the names of their files. -/
def readEntries (disk : Disk) (directory : String) : List CacheEntry :=
  (disk.names (disk.placeOf directory)).filterMap fun name => readEntry? disk (Path.join directory name)

/-- **What is read from the directory are the entries that were inserted last.** -/
theorem mem_readEntries (h : disk.HoldsLatest directory (history inserts)) (hdigest : HasDigestsApart inserts) :
    e ∈ readEntries disk directory ↔ lastEntryOf? inserts e.typeName = some e := by
  rw [readEntries, List.mem_filterMap]
  constructor
  · rintro ⟨name, hname, hread⟩
    rw [h.readEntry?_join (h.plain name (Disk.mem_names.mp hname))] at hread
    obtain ⟨hmem, rfl⟩ := of_latest?_eq_some hread
    rw [← hdigest.latest?_fileName (mem_typeNames_iff.mpr ⟨e, hmem, rfl⟩), hread]
  · intro hlast
    rw [← hdigest.latest?_fileName (of_lastEntryOf?_eq_some hlast).2] at hlast
    have hplain := CacheEntry.isPlainName_fileName e.typeName
    have hnode := (h.file_iff _ _).mpr ⟨e, hlast, rfl⟩
    exact ⟨_, Disk.mem_names.mpr (by rw [hnode]; rfl), (h.readEntry?_join hplain).trans hlast⟩

/-- Where a directory is found, what is in it is loaded. -/
theorem load_of_find {place : Place} (hdir : c.dir? = some directory)
    (hfind : disk.find directory = .ok (place, .directory)) : c.load disk =
      .ok (((disk.names place).filterMap fun name => readEntry? disk (Path.join directory name)).foldl put c) := by
  have hexists : disk.exists? directory = true := by
    rw [Disk.exists?, hfind]
    rfl
  rw [load, hdir]
  dsimp only
  rw [if_pos hexists, Disk.readDirectory, hfind]
  rfl

/-- A directory that holds entries is read by loading. -/
theorem load_of_holdsLatest (h : disk.HoldsLatest directory (history inserts)) (hdirectory : directory ≠ "")
    (hne : history inserts ≠ []) (hdir : c.dir? = some directory) :
    c.load disk = .ok ((readEntries disk directory).foldl put c) := by
  obtain ⟨e, hmem⟩ := List.exists_mem_of_ne_nil _ hne
  have hcheck := (CacheEntry.isPlainName_fileName e.typeName).checkPath_of_join hdirectory (h.path e hmem).1
  exact load_of_find hdir ((h.leads hne).find_eq_ok hcheck)

/-- Where nothing is, nothing is loaded. -/
theorem load_of_isVacant (h : disk.IsVacant (disk.placeOf directory)) (hdir : c.dir? = some directory) :
    c.load disk = .ok c := by
  have hexists : disk.exists? directory = false := by
    rw [Disk.exists?]
    cases hfind : disk.find directory with
    | error fault => rfl
    | ok found =>
      have hnode := (find_eq_ok_iff.mp hfind).2.2
      have hnone := h []
      rw [List.append_nil, ← eq_placeOf_of_find hfind, hnode] at hnone
      cases hnone
  rw [load, hdir]
  dsimp only
  rw [hexists]
  rfl

/-- A file cannot be inserted where the directory has no name and is not there. -/
theorem directory_ne_empty {insert : StubFile × String} {rest : List (StubFile × String)}
    (hdir : c.dir? = some directory) (hvacant : disk.IsVacant (disk.placeOf directory))
    (hinserts : c.insertAll disk (insert :: rest) = (.ok (), c', disk')) : directory ≠ "" := by
  rintro rfl
  rw [insertAll] at hinserts
  split at hinserts
  next => simp at hinserts
  next hinsert => exact save_ne_ok_of_vacant hvacant (of_insert_eq_ok hdir hinsert).2

/-- **A cache on the directory of another one loads what was inserted last.** Files were inserted into a cache with a
directory where nothing was before. If no two of their types have one digest, a new cache that has room for the types
loads one entry for each, and answers the file that was inserted last, to the fingerprint it was inserted with. -/
theorem reloads_inserted (capacity : Nat) (hdir : c.dir? = some directory)
    (hvacant : disk.IsVacant (disk.placeOf directory)) (hinserts : c.insertAll disk inserts = (.ok (), c', disk'))
    (hdigest : HasDigestsApart inserts) (hroom : (typeNames inserts).dedup.length ≤ capacity) :
    ∃ loaded, (empty capacity (some directory)).load disk' = .ok loaded ∧ loaded.names.Nodup ∧
      (∀ name, name ∈ loaded.names ↔ name ∈ typeNames inserts) ∧
      ∀ name fingerprint, (loaded.get name fingerprint).1 =
        (lastInserted? inserts name).bind fun (file, f) => if f = fingerprint then some file else none := by
  have hempty := isProper_empty capacity (some directory)
  cases inserts with
  | nil =>
    obtain ⟨-, -, rfl⟩ : True ∧ _ ∧ _ := by simpa [insertAll] using hinserts
    refine ⟨_, load_of_isVacant hvacant rfl, hempty.answers fun e => ?_⟩
    simp [empty, lastEntryOf?, lastInserted?]
  | cons first rest =>
    have hholds : disk'.HoldsLatest directory (history (first :: rest)) := by
      have hall := holdsLatest_insertAll hdir hvacant.holdsLatest hinserts
      rwa [List.append_nil] at hall
    have hmem : ∀ e, e ∈ readEntries disk' directory ↔ lastEntryOf? (first :: rest) e.typeName = some e :=
      fun e => mem_readEntries hholds hdigest
    have hagree : Agree (readEntries disk' directory) := by
      intro e he f hf hname
      have hlast := (hmem e).mp he
      rw [hname, (hmem f).mp hf] at hlast
      exact (Option.some.inj hlast).symm
    have hknown : ∀ e ∈ readEntries disk' directory, e.typeName ∈ (typeNames (first :: rest)).dedup := fun e he =>
      List.mem_dedup.mpr (of_lastEntryOf?_eq_some ((hmem e).mp he)).2
    obtain ⟨hproper, hentries⟩ := hempty.foldl_put_of_room hagree hknown (Nat.le_trans hroom (Nat.le_max_left _ _))
    refine ⟨_, load_of_holdsLatest hholds (directory_ne_empty hdir hvacant hinserts) (by simp [history]) rfl,
      hproper.answers fun e => (hentries e).trans (hmem e)⟩

/-- A file that its cache has no room for, and one that another took the place of, are loaded as they were last. -/
theorem evicted_reloaded :
    let disk : Disk := ⟨[], []⟩
    let inserts := [(someFile "Data.A" "\"\\\n", "1"), (someFile "Data.B" "", "2"), (someFile "Data.A" "\t€", "3"),
      (someFile "Data.C<T>" "", "4")]
    ∃ c' disk', (empty 1 (some "/cache/../units")).insertAll disk inserts = (.ok (), c', disk') ∧
      c'.names = ["Data.C<T>"] ∧
      ∃ loaded, (empty 3 (some "/cache/../units")).load disk' = .ok loaded ∧ loaded.names.Nodup ∧
        "Data.B" ∈ loaded.names ∧ (loaded.get "Data.A" "3").1 = some (someFile "Data.A" "\t€") ∧
        (loaded.get "Data.A" "1").1 = none := by
  intro disk inserts
  have hok : ((empty 1 (some "/cache/../units")).insertAll disk inserts).1.isOk = true ∧
      ((empty 1 (some "/cache/../units")).insertAll disk inserts).2.1.names = ["Data.C<T>"] := by decide +kernel
  rcases hresult : (empty 1 (some "/cache/../units")).insertAll disk inserts with ⟨failure | _, c', disk'⟩
  · rw [hresult] at hok
    exact absurd hok.1 Bool.false_ne_true
  · rw [hresult] at hok
    have hvacant : disk.IsVacant (disk.placeOf "/cache/../units") := by
      have hplace : disk.placeOf "/cache/../units" = ["units"] := by decide +kernel
      rw [hplace]
      exact fun below => rfl
    have hdigest : HasDigestsApart inserts := by
      unfold HasDigestsApart
      decide +kernel
    obtain ⟨loaded, hload, hnodup, hnames, hget⟩ := reloads_inserted 3 rfl hvacant hresult hdigest (by decide +kernel)
    refine ⟨c', disk', rfl, hok.2, loaded, hload, hnodup, (hnames _).mpr (by decide +kernel), ?_, ?_⟩
    · rw [hget]
      decide +kernel
    · rw [hget]
      decide +kernel

/-- A disk with the entry of another cache in the working directory. -/
def home : Disk :=
  ⟨[(["home"], .directory),
    (["home", "z.json"], .file (.text (CacheEntry.ofFile (someFile "Data.Other" "") "1").toJson.toPretty))], ["home"]⟩

/-- The disk once a file was inserted by way of a new directory. -/
def homeAfter : Disk :=
  { home with nodes := home.nodes ++ [(["home", "new"], .directory), (["home", CacheEntry.fileName "Data.A"],
      .file (.text (CacheEntry.ofFile (someFile "Data.A" "") "1").toJson.toPretty))] }

theorem names_homeAfter : homeAfter.names ["home"] = [CacheEntry.fileName "Data.A", "new", "z.json"] := by
  change (["z.json", "new", CacheEntry.fileName "Data.A"].mergeSort fun a b => a ≤ b) = _
  exact mergeSort_texts_eq_of_perm (by decide +kernel) (by decide +kernel)

theorem readEntries_homeAfter :
    ((homeAfter.names ["home"]).filterMap fun name => readEntry? homeAfter (Path.join "new/.." name)) =
      [.ofFile (someFile "Data.A" "") "1", .ofFile (someFile "Data.Other" "") "1"] := by
  have hfinds : homeAfter.find (Path.join "new/.." (CacheEntry.fileName "Data.A")) =
        .ok (["home", CacheEntry.fileName "Data.A"],
          .file (.text (CacheEntry.ofFile (someFile "Data.A" "") "1").toJson.toPretty)) ∧
      homeAfter.find (Path.join "new/.." "z.json") = .ok (["home", "z.json"],
        .file (.text (CacheEntry.ofFile (someFile "Data.Other" "") "1").toJson.toPretty)) := by decide +kernel
  have hinserted := readEntry?_of_find (Path.extension?_join _ _) hfinds.1
  have hother := readEntry?_of_find (by decide +kernel) hfinds.2
  have hnew : readEntry? homeAfter (Path.join "new/.." "new") = none := by decide +kernel
  rw [names_homeAfter]
  generalize readEntry? homeAfter = read at *
  simp [hinserted, hother, hnew]

/-- A path that leads nowhere as long as a directory on the way is missing may lead to one with other entries in it,
once that directory is made. -/
theorem missing_path_loads_others :
    home.exists? "new/.." = false ∧
      ((empty 8 (some "new/..")).insertAll home [(someFile "Data.A" "", "1")]).1.isOk = true ∧
      ((empty 8 (some "new/..")).insertAll home [(someFile "Data.A" "", "1")]).2.2 = homeAfter ∧
      ∃ loaded, (empty 8 (some "new/..")).load homeAfter = .ok loaded ∧ loaded.names = ["Data.Other", "Data.A"] := by
  have hfind : homeAfter.find "new/.." = .ok (["home"], .directory) := by decide +kernel
  refine ⟨by decide +kernel, by decide +kernel, by decide +kernel, _, load_of_find rfl hfind, ?_⟩
  rw [readEntries_homeAfter]
  decide +kernel

end Directory

end StubCache

end ContractStubs
