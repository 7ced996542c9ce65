import ContractStubs.Proofs.Disk.Paths
import ContractStubs.Source.Find
import Mathlib.Data.List.Nodup

/-!
# Source files that are found

Among some paths all source files are found that one of them stands for, each path once, in the order of paths
(`findSources_finds`). The paths are told apart by their parts, not by where they lead. So a file is found twice exactly
if there are two ways to it that are spelled differently, and not at all where no path goes up or starts with a dot and
all start at the root or none does.
-/

namespace ContractStubs

open PathPart (allBefore)

/-! ## Sorted paths -/

section Sorting

variable {paths : List String} {path : String}

/-- The first path comes before the second one in the order of paths. -/
def Path.Precedes (a b : String) : Prop := allBefore (parts a) (parts b) = true

theorem mem_of_mem_dropSame : ∀ {paths : List String}, path ∈ sortPaths.dropSame paths → path ∈ paths
  | [], h => h
  | first :: paths, h => by
    rw [sortPaths.dropSame] at h
    split at h
    · obtain rfl := List.mem_singleton.mp h
      exact List.mem_cons_self
    next next rest hrest =>
      have hin : path ∈ next :: rest → path ∈ paths := fun hkept => mem_of_mem_dropSame (hrest ▸ hkept)
      split at h
      · rcases List.mem_cons.mp h with rfl | h
        · exact List.mem_cons_self
        · exact List.mem_cons_of_mem _ (hin (List.mem_cons_of_mem _ h))
      · rcases List.mem_cons.mp h with rfl | h
        · exact List.mem_cons_self
        · exact List.mem_cons_of_mem _ (hin h)

/-- For each path one with the same parts is left. -/
theorem exists_mem_dropSame : ∀ {paths : List String}, path ∈ paths →
    ∃ kept ∈ sortPaths.dropSame paths, Path.parts kept = Path.parts path
  | first :: paths, h => by
    rw [sortPaths.dropSame]
    rcases List.mem_cons.mp h with rfl | h
    · split
      · exact ⟨path, List.mem_cons_self, rfl⟩
      · split <;> exact ⟨path, List.mem_cons_self, rfl⟩
    · obtain ⟨kept, hkept, hparts⟩ := exists_mem_dropSame h
      split
      next hnil =>
        rw [hnil] at hkept
        cases hkept
      next next rest hrest =>
        rw [hrest] at hkept
        split
        next hsame =>
          rcases List.mem_cons.mp hkept with rfl | hkept
          · exact ⟨first, List.mem_cons_self, hsame.trans hparts⟩
          · exact ⟨kept, List.mem_cons_of_mem _ hkept, hparts⟩
        next => exact ⟨kept, List.mem_cons_of_mem _ hkept, hparts⟩

/-- Of paths that stand in order those that are left ascend. -/
theorem pairwise_dropSame : ∀ {paths : List String},
    paths.Pairwise (fun a b => allBefore (Path.parts b) (Path.parts a) = false) →
      (sortPaths.dropSame paths).Pairwise Path.Precedes
  | [], _ => .nil
  | first :: paths, h => by
    obtain ⟨hfirst, hrest⟩ := List.pairwise_cons.mp h
    have ih := pairwise_dropSame hrest
    rw [sortPaths.dropSame]
    split
    · exact List.pairwise_singleton _ _
    next next rest hkept =>
      rw [hkept] at ih
      obtain ⟨hnext, hascend⟩ := List.pairwise_cons.mp ih
      split
      next hsame => exact List.pairwise_cons.mpr ⟨fun q hq => by rw [Path.Precedes, hsame]; exact hnext q hq, hascend⟩
      next hdifferent =>
        have hmem : next ∈ paths := mem_of_mem_dropSame (hkept ▸ List.mem_cons_self)
        have hbefore : Path.Precedes first next := by
          rw [Path.Precedes, ← Bool.not_eq_false]
          exact fun hnot => hdifferent (PathPart.eq_of_not_allBefore hnot (hfirst next hmem))
        refine List.pairwise_cons.mpr ⟨fun q hq => ?_, ih⟩
        rcases List.mem_cons.mp hq with rfl | hq
        · exact hbefore
        · exact PathPart.allBefore_trans hbefore (hnext q hq)

/-- **Sorted paths ascend.** -/
theorem pairwise_sortPaths (paths : List String) : (sortPaths paths).Pairwise Path.Precedes := by
  have hsorted := @List.pairwise_mergeSort _ (fun a b : String => !allBefore (Path.parts b) (Path.parts a))
    (fun a b c hab hbc => by
      simp only [Bool.not_eq_true'] at hab hbc ⊢
      exact PathPart.not_allBefore_trans hab hbc)
    (fun a b => by
      cases h : allBefore (Path.parts b) (Path.parts a) with
      | false => rfl
      | true => simp [PathPart.not_allBefore_of_allBefore h])
    paths
  exact pairwise_dropSame (hsorted.imp fun h => by simpa using h)

/-- No two sorted paths have the same parts. -/
theorem nodup_parts_sortPaths (paths : List String) : ((sortPaths paths).map Path.parts).Nodup := by
  rw [List.Nodup, List.pairwise_map]
  refine (pairwise_sortPaths paths).imp fun {a b} h hparts => ?_
  rw [Path.Precedes, hparts, PathPart.not_allBefore_self] at h
  cases h

theorem mem_of_mem_sortPaths (h : path ∈ sortPaths paths) : path ∈ paths :=
  List.mem_mergeSort.mp (mem_of_mem_dropSame h)

theorem exists_mem_sortPaths (h : path ∈ paths) : ∃ kept ∈ sortPaths paths, Path.parts kept = Path.parts path :=
  exists_mem_dropSame (List.mem_mergeSort.mpr h)

end Sorting

/-! ## Files that a path stands for -/

namespace Disk

variable {disk : Disk} {extension path : String} {names : Place}

/-- No place is listed twice and the root not at all, and all names are plain. -/
structure IsOrderly (disk : Disk) : Prop where
  once : (disk.nodes.map Prod.fst).Nodup
  root : ∀ e ∈ disk.nodes, e.1 ≠ []
  plain : ∀ e ∈ disk.nodes, ∀ name ∈ e.1, IsPlainName name

instance (name : String) : Decidable (IsPlainName name) :=
  decidable_of_iff (name ≠ "" ∧ isDots name = false ∧ '/' ∉ name.toList)
    ⟨fun ⟨hne, hdots, hslash⟩ => ⟨hne, hdots, hslash⟩, fun h => ⟨h.ne_empty, h.not_dots, h.no_slash⟩⟩

instance (disk : Disk) : Decidable disk.IsOrderly :=
  decidable_of_iff ((disk.nodes.map Prod.fst).Nodup ∧ (∀ e ∈ disk.nodes, e.1 ≠ []) ∧
      ∀ e ∈ disk.nodes, ∀ name ∈ e.1, IsPlainName name)
    ⟨fun ⟨honce, hroot, hplain⟩ => ⟨honce, hroot, hplain⟩, fun h => ⟨h.once, h.root, h.plain⟩⟩

/-- The names lead from the end of the path to a file that the path stands for: the file that is there, or a source file
in or below the directory that is there, all directories between being looked into. -/
inductive StandsFor (disk : Disk) (extension : String) : (path : String) → (names : Place) → Prop where
  | file {path : String} {place : Place} {content : FileContent} (hpath : disk.find path = .ok (place, .file content)) :
      StandsFor disk extension path []
  | below {path : String} {place names : Place} {content : FileContent}
      (hpath : disk.find path = .ok (place, .directory)) (hfile : disk.node? (place ++ names) = some (.file content))
      (hlooked : ∀ name ∈ names.dropLast, name ∉ skippedDirectories)
      (hopened : (names.dropLast.foldl Path.join path).utf8ByteSize ≤ pathLimit)
      (hsource : isSourceFile (names.foldl Path.join path) extension = true) : StandsFor disk extension path names

theorem lookup_eq_some_iff {place : Place} {node : DiskNode} : ∀ {nodes : List (Place × DiskNode)},
    (nodes.map Prod.fst).Nodup → (nodes.lookup place = some node ↔ (place, node) ∈ nodes)
  | [], _ => by simp
  | (p, n) :: nodes, h => by
    obtain ⟨hfresh, hrest⟩ := List.nodup_cons.mp h
    rw [lookup_cons_eq, List.mem_cons, Prod.mk.injEq]
    split
    next hplace =>
      subst hplace
      have hnot : (place, node) ∉ nodes := fun hmem => hfresh (List.mem_map.mpr ⟨_, hmem, rfl⟩)
      rw [Option.some.injEq, or_iff_left hnot, and_iff_right rfl, eq_comm]
    next hplace => rw [or_iff_right fun he => hplace he.1, lookup_eq_some_iff hrest]

/-- The files on a disk are those that it lists. -/
theorem IsOrderly.mem_nodes_iff (h : disk.IsOrderly) {place : Place} {content : FileContent} :
    (place, .file content) ∈ disk.nodes ↔ disk.node? place = some (.file content) := by
  rw [← lookup_eq_some_iff h.once, node?]
  by_cases hroot : place = []
  · subst hroot
    rw [if_pos rfl, lookup_eq_some_iff h.once]
    exact iff_of_false (fun hmem => h.root _ hmem rfl) fun hnode => by cases hnode
  · rw [if_neg hroot]

/-- The names to a file that a path stands for are plain. -/
theorem StandsFor.plain (h : disk.StandsFor extension path names) (hdisk : disk.IsOrderly) :
    ∀ name ∈ names, IsPlainName name := by
  cases h with
  | file => exact nofun
  | below _ hfile =>
    have hmem := hdisk.mem_nodes_iff.mpr hfile
    exact fun name hname => hdisk.plain _ hmem name (List.mem_append_right _ hname)

/-- The path to a file that a path stands for has the parts of this path and the names. -/
theorem StandsFor.parts_file (h : disk.StandsFor extension path names) (hdisk : disk.IsOrderly) :
    Path.parts (names.foldl Path.join path) = Path.parts path ++ names.map .name :=
  parts_foldl_join (h.plain hdisk) path

/-- The path to a file that a path stands for leads to where the names lead. -/
theorem StandsFor.placeOf_file (h : disk.StandsFor extension path names) (hdisk : disk.IsOrderly) :
    disk.placeOf (names.foldl Path.join path) = disk.placeOf path ++ names :=
  placeOf_foldl_join (h.plain hdisk) disk path

theorem below?_eq_some_iff {top place : Place} : top.below? place = some names ↔ place = top ++ names := by
  rw [Place.below?, isPrefixOf_eq_decide]
  constructor
  · intro h
    split at h
    next hprefix =>
      obtain ⟨rest, rfl⟩ := of_decide_eq_true hprefix
      rw [List.drop_left] at h
      rw [Option.some.inj h]
    next => cases h
  · rintro rfl
    rw [decide_eq_true (List.prefix_append top names), if_pos rfl, List.drop_left]

theorem sourceBelow?_eq_some_iff {file : String} : sourceBelow? path extension names = some file ↔
    (∀ name ∈ names.dropLast, name ∉ skippedDirectories) ∧
      (names.dropLast.foldl Path.join path).utf8ByteSize ≤ pathLimit ∧
      isSourceFile (names.foldl Path.join path) extension = true ∧ file = names.foldl Path.join path := by
  have hlooked : names.dropLast.any skippedDirectories.contains = false ↔
      ∀ name ∈ names.dropLast, name ∉ skippedDirectories := by
    simp only [List.any_eq_false, List.contains_iff_mem]
  rw [sourceBelow?, ← hlooked]
  split
  next hnot =>
    refine iff_of_false nofun fun ⟨hdirectories, hshort, hsource, _⟩ => ?_
    rw [hdirectories, decide_eq_false (Nat.not_lt.mpr hshort), hsource] at hnot
    cases hnot
  next hall =>
    simp only [Bool.or_eq_true, decide_eq_true_eq, Bool.not_eq_true', not_or, Bool.not_eq_true, Nat.not_lt,
      Bool.not_eq_false] at hall
    rw [Option.some.injEq, and_iff_right hall.1.1, and_iff_right hall.1.2, and_iff_right hall.2, eq_comm]

/-- In a directory just those files are found that its path stands for. -/
theorem mem_sourcesBelow_iff {place : Place} {file : String} (h : disk.IsOrderly)
    (hfind : disk.find path = .ok (place, .directory)) : file ∈ sourcesBelow disk path extension place ↔
      ∃ names, disk.StandsFor extension path names ∧ file = names.foldl Path.join path := by
  rw [sourcesBelow, List.mem_filterMap]
  constructor
  · rintro ⟨⟨p, node⟩, hmem, hfile⟩
    cases node with
    | directory => cases hfile
    | file content =>
      obtain ⟨names, hbelow, hfound⟩ := Option.bind_eq_some_iff.mp hfile
      obtain rfl := below?_eq_some_iff.mp hbelow
      obtain ⟨hlooked, hopened, hsource, rfl⟩ := sourceBelow?_eq_some_iff.mp hfound
      exact ⟨names, .below hfind (h.mem_nodes_iff.mp hmem) hlooked hopened hsource, rfl⟩
  · rintro ⟨names, hstands, rfl⟩
    cases hstands with
    | file hother => cases hfind.symm.trans hother
    | below hother hfile hlooked hopened hsource =>
      cases hfind.symm.trans hother
      exact ⟨_, h.mem_nodes_iff.mpr hfile, Option.bind_eq_some_iff.mpr ⟨names, below?_eq_some_iff.mpr rfl,
        sourceBelow?_eq_some_iff.mpr ⟨hlooked, hopened, hsource, rfl⟩⟩⟩

/-- What a path stands for is found, if something is there. -/
theorem exists_mem_sourcesAt? (h : disk.IsOrderly) (hpath : disk.exists? path = true) (extension : String) :
    ∃ files, sourcesAt? disk extension path = some files ∧
      ∀ file, file ∈ files ↔ ∃ names, disk.StandsFor extension path names ∧ file = names.foldl Path.join path := by
  cases hfind : disk.find path with
  | error fault =>
    rw [exists?, hfind] at hpath
    cases hpath
  | ok found =>
    obtain ⟨place, node⟩ := found
    cases node with
    | file content =>
      refine ⟨[path], by rw [sourcesAt?, hfind], fun file => ?_⟩
      rw [List.mem_singleton]
      constructor
      · rintro rfl
        exact ⟨[], .file hfind, rfl⟩
      · rintro ⟨names, hstands, rfl⟩
        cases hstands with
        | file => rfl
        | below hother => cases hfind.symm.trans hother
    | directory =>
      exact ⟨sourcesBelow disk path extension place, by rw [sourcesAt?, hfind],
        fun file => mem_sourcesBelow_iff h hfind⟩

/-- What the paths stand for is gathered, if something is at each of them. -/
theorem exists_gather (h : disk.IsOrderly) (extension : String) : ∀ {paths : List String},
    (∀ p ∈ paths, disk.exists? p = true) → ∃ files, findSources.gather disk extension paths = .ok files ∧
      ∀ file, file ∈ files ↔ ∃ p ∈ paths, ∃ names, disk.StandsFor extension p names ∧ file = names.foldl Path.join p
  | [], _ => ⟨[], rfl, fun file => by simp⟩
  | p :: paths, hpaths => by
    obtain ⟨hp, hrest⟩ := List.forall_mem_cons.mp hpaths
    obtain ⟨first, hfirst, hmem⟩ := exists_mem_sourcesAt? h hp extension
    obtain ⟨rest, hgather, hmemrest⟩ := exists_gather h extension hrest
    refine ⟨first ++ rest, ?_, fun file => ?_⟩
    · rw [findSources.gather, hfirst]
      dsimp only
      rw [hgather]
      rfl
    · rw [List.mem_append, hmem, hmemrest]
      simp only [List.mem_cons, exists_eq_or_imp]

/-! ## Each file once -/

/-- All ways from one of the paths to the same file that it stands for have the same parts. -/
def SpellsAlike (disk : Disk) (extension : String) (paths : List String) : Prop :=
  ∀ p ∈ paths, ∀ q ∈ paths, ∀ names others, disk.StandsFor extension p names → disk.StandsFor extension q others →
    disk.placeOf p ++ names = disk.placeOf q ++ others →
      Path.parts p ++ names.map .name = Path.parts q ++ others.map .name

/-- Straight paths spell all ways alike, if all start at the root or none does. -/
theorem spellsAlike_of_isStraight {paths : List String} (hstraight : ∀ p ∈ paths, IsStraight p)
    (hstart : ∀ p ∈ paths, ∀ q ∈ paths, Path.isAbsolute p = Path.isAbsolute q) : disk.SpellsAlike extension paths := by
  intro p hp q hq names others _ _ hplace
  obtain ⟨before, hparts, hleads⟩ := (hstraight p hp).exists_names disk
  obtain ⟨before', hparts', hleads'⟩ := (hstraight q hq).exists_names disk
  have horigin : disk.origin p = disk.origin q := by rw [origin, origin, hstart p hp q hq]
  rw [hleads, hleads', horigin, List.append_assoc, List.append_assoc] at hplace
  have hnames : before ++ names = before' ++ others := List.append_cancel_left hplace
  rw [hparts, hparts', hstart p hp q hq, List.append_assoc, List.append_assoc, ← List.map_append, ← List.map_append,
    hnames]

section Found

variable {paths gathered : List String}

/-- The places of sorted paths are those of the paths. -/
theorem mem_map_sortPaths {place : Place} :
    place ∈ (sortPaths gathered).map disk.placeOf ↔ ∃ file ∈ gathered, place = disk.placeOf file := by
  rw [List.mem_map]
  constructor
  · rintro ⟨file, hfile, rfl⟩
    exact ⟨file, mem_of_mem_sortPaths hfile, rfl⟩
  · rintro ⟨file, hfile, rfl⟩
    obtain ⟨kept, hkept, hparts⟩ := exists_mem_sortPaths hfile
    exact ⟨kept, hkept, by rw [placeOf_eq_foldl, hparts, ← placeOf_eq_foldl]⟩

/-- Sorted paths lead to different places exactly if paths to the same place have the same parts. -/
theorem nodup_map_sortPaths_iff : ((sortPaths gathered).map disk.placeOf).Nodup ↔
    ∀ a ∈ gathered, ∀ b ∈ gathered, disk.placeOf a = disk.placeOf b → Path.parts a = Path.parts b := by
  constructor
  · intro hnodup a ha b hb hplace
    obtain ⟨kept, hkept, hparts⟩ := exists_mem_sortPaths ha
    obtain ⟨kept', hkept', hparts'⟩ := exists_mem_sortPaths hb
    have hsame : disk.placeOf kept = disk.placeOf kept' := by
      rw [placeOf_eq_foldl, placeOf_eq_foldl, hparts, hparts', ← placeOf_eq_foldl, ← placeOf_eq_foldl, hplace]
    rw [← hparts, ← hparts', List.inj_on_of_nodup_map hnodup hkept hkept' hsame]
  · intro halike
    have hparts := nodup_parts_sortPaths gathered
    refine hparts.of_map.map_on fun a ha b hb hplace => ?_
    exact List.inj_on_of_nodup_map hparts ha hb
      (halike a (mem_of_mem_sortPaths ha) b (mem_of_mem_sortPaths hb) hplace)

/-- Among the files that paths stand for those at one place have the same parts exactly if the paths spell all ways
alike. -/
theorem forall_parts_eq_iff_spellsAlike (hdisk : disk.IsOrderly)
    (hmem : ∀ file, file ∈ gathered ↔
      ∃ p ∈ paths, ∃ names, disk.StandsFor extension p names ∧ file = names.foldl Path.join p) :
    (∀ a ∈ gathered, ∀ b ∈ gathered, disk.placeOf a = disk.placeOf b → Path.parts a = Path.parts b) ↔
      disk.SpellsAlike extension paths := by
  constructor
  · intro h p hp q hq names others hnames hothers hplace
    rw [← hnames.parts_file hdisk, ← hothers.parts_file hdisk]
    refine h _ ((hmem _).mpr ⟨p, hp, names, hnames, rfl⟩) _ ((hmem _).mpr ⟨q, hq, others, hothers, rfl⟩) ?_
    rw [hnames.placeOf_file hdisk, hothers.placeOf_file hdisk, hplace]
  · intro h a ha b hb hplace
    obtain ⟨p, hp, names, hnames, rfl⟩ := (hmem a).mp ha
    obtain ⟨q, hq, others, hothers, rfl⟩ := (hmem b).mp hb
    rw [hnames.placeOf_file hdisk, hothers.placeOf_file hdisk] at hplace
    rw [hnames.parts_file hdisk, hothers.parts_file hdisk]
    exact h p hp q hq names others hnames hothers hplace

end Found

end Disk

/-- **Each source file among some paths is found**, in the order of paths. On a disk, which is without links, no file is
found twice exactly if all ways to it are spelled alike, so in particular among straight paths that all start at the root
or all do not. -/
theorem findSources_finds {disk : Disk} {paths : List String} (hdisk : disk.IsOrderly)
    (hpaths : ∀ p ∈ paths, disk.exists? p = true) (extension : String) :
    ∃ files, findSources disk extension paths = .ok files ∧ files.Pairwise Path.Precedes ∧
      (∀ place, place ∈ files.map disk.placeOf ↔
        ∃ p ∈ paths, ∃ names, disk.StandsFor extension p names ∧ place = disk.placeOf p ++ names) ∧
      ((files.map disk.placeOf).Nodup ↔ disk.SpellsAlike extension paths) ∧
      ((∀ p ∈ paths, Disk.IsStraight p) → (∀ p ∈ paths, ∀ q ∈ paths, Path.isAbsolute p = Path.isAbsolute q) →
        (files.map disk.placeOf).Nodup) := by
  obtain ⟨gathered, hgather, hmem⟩ := Disk.exists_gather hdisk extension hpaths
  have halike : ((sortPaths gathered).map disk.placeOf).Nodup ↔ disk.SpellsAlike extension paths :=
    Disk.nodup_map_sortPaths_iff.trans (Disk.forall_parts_eq_iff_spellsAlike hdisk hmem)
  refine ⟨sortPaths gathered, by rw [findSources, hgather]; rfl, pairwise_sortPaths gathered, fun place => ?_, halike,
    fun hstraight hstart => halike.mpr (Disk.spellsAlike_of_isStraight hstraight hstart)⟩
  rw [Disk.mem_map_sortPaths]
  constructor
  · rintro ⟨file, hfile, rfl⟩
    obtain ⟨p, hp, names, hnames, rfl⟩ := (hmem file).mp hfile
    exact ⟨p, hp, names, hnames, hnames.placeOf_file hdisk⟩
  · rintro ⟨p, hp, names, hnames, rfl⟩
    exact ⟨_, (hmem _).mpr ⟨p, hp, names, hnames, rfl⟩, (hnames.placeOf_file hdisk).symm⟩

/-- A working directory with one source file in it and one in a directory below. -/
def Disk.twoSources : Disk :=
  ⟨[(["w"], .directory), (["w", "x.cs"], .file (.text "")), (["w", "d"], .directory),
    (["w", "d", "y.cs"], .file (.text ""))], ["w"]⟩

/-- Paths that overlap find each file once. -/
theorem overlapping_paths_find_once : Disk.twoSources.IsOrderly ∧
    (∀ p ∈ ["/w/d", "/w", "/w/x.cs"], Disk.twoSources.exists? p = true) ∧
    ∃ files, findSources Disk.twoSources ".g.cs" ["/w/d", "/w", "/w/x.cs"] = .ok files ∧
      (files.map Disk.twoSources.placeOf).Nodup := by
  have hdisk : Disk.twoSources.IsOrderly := by decide +kernel
  have hpaths : ∀ p ∈ ["/w/d", "/w", "/w/x.cs"], Disk.twoSources.exists? p = true := by decide +kernel
  obtain ⟨files, hfiles, -, -, -, honce⟩ := findSources_finds hdisk hpaths ".g.cs"
  exact ⟨hdisk, hpaths, files, hfiles, honce (by decide +kernel) (by decide +kernel)⟩

/-- A way that goes down and up again finds a file a second time. -/
theorem detour_finds_twice : Disk.twoSources.IsOrderly ∧
    (∀ p ∈ ["d/../x.cs", "x.cs"], Disk.twoSources.exists? p = true) ∧
    ∃ files, findSources Disk.twoSources ".g.cs" ["d/../x.cs", "x.cs"] = .ok files ∧
      files = ["d/../x.cs", "x.cs"] ∧ ¬(files.map Disk.twoSources.placeOf).Nodup := by
  have hgather : findSources.gather Disk.twoSources ".g.cs" ["d/../x.cs", "x.cs"] = .ok ["d/../x.cs", "x.cs"] := by
    decide +kernel
  refine ⟨by decide +kernel, by decide +kernel, _, ?_, rfl, by decide +kernel⟩
  rw [findSources, hgather, Except.map, sortPaths, List.mergeSort_of_pairwise (by decide +kernel)]
  decide +kernel

end ContractStubs
