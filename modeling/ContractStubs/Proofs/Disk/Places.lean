import ContractStubs.Disk.Basic
import ContractStubs.Proofs.Text.Pieces

/-!
# Places on a disk

Where a path leads can be told from the path alone (`Disk.placeOf`), since every step of it goes to a directory; whether
it gets there depends on the disk. What stands at a place after something was put there or elsewhere is told by
`Disk.node?_put`, and after a directory was removed by `Disk.empties_removeDirectory`. A disk that has the directories of
another one, and something wherever this has (`Disk.Keeps`), is followed along the same paths (`Disk.Keeps.follow`).
-/

namespace ContractStubs

namespace Disk

variable {disk other : Disk} {place : Place} {name path : String} {node : DiskNode}

/-! ## What stands at a place -/

theorem lookup_cons_eq (place p : Place) (n : DiskNode) (nodes : List (Place × DiskNode)) :
    ((p, n) :: nodes).lookup place = if place = p then some n else nodes.lookup place := by
  by_cases h : place = p
  · simp [h]
  · simp [List.lookup_cons, beq_false_of_ne h, h]

theorem lookup_putNode (place : Place) (node : DiskNode) (other : Place) : ∀ nodes : List (Place × DiskNode),
    (putNode place node nodes).lookup other = if other = place then some node else nodes.lookup other
  | [] => by rw [putNode, lookup_cons_eq]
  | (p, n) :: nodes => by
    have ih := lookup_putNode place node other nodes
    rw [putNode]
    split
    next hp =>
      rw [lookup_cons_eq, lookup_cons_eq, hp]
      split <;> rfl
    next hp =>
      rw [lookup_cons_eq, lookup_cons_eq, ih]
      split
      next h => rw [if_neg fun he => hp (h.symm.trans he)]
      next => rfl

/-- What is put at a place that is not the root stands there, and everything else is as before. -/
theorem node?_put (disk : Disk) (place : Place) (name : String) (node : DiskNode) (other : Place) :
    (disk.put (place ++ [name]) node).node? other =
      if other = place ++ [name] then some node else disk.node? other := by
  by_cases hroot : other = []
  · simp [node?, hroot]
  · simp [node?, hroot, put, lookup_putNode]

theorem isSome_lookup_iff (place : Place) : ∀ nodes : List (Place × DiskNode),
    (nodes.lookup place).isSome ↔ ∃ n, (place, n) ∈ nodes
  | [] => by simp
  | (p, n) :: nodes => by
    have ih := isSome_lookup_iff place nodes
    rw [lookup_cons_eq]
    split
    next h => simp [h]
    next h => simp [ih, h]

/-- A directory lists the names of what stands in it. -/
theorem mem_names : name ∈ disk.names place ↔ (disk.node? (place ++ [name])).isSome := by
  have hroot : place ++ [name] ≠ [] := by simp
  rw [names, List.mem_mergeSort, List.mem_filterMap, node?, if_neg hroot, isSome_lookup_iff]
  constructor
  · rintro ⟨⟨p, n⟩, hmem, h⟩
    dsimp only at h
    split at h
    next hp =>
      obtain ⟨before, hbefore⟩ := List.getLast?_eq_some_iff.mp h
      subst hbefore
      rw [List.dropLast_concat] at hp
      exact ⟨n, hp ▸ hmem⟩
    next => cases h
  · rintro ⟨n, hmem⟩
    exact ⟨_, hmem, by simp⟩

/-! ## Where a path leads -/

/-- The place to which pieces of a path lead, if each of them leads somewhere. -/
def walk : Place → List String → Place
  | place, [] => place
  | place, piece :: pieces =>
    if piece = "" || piece = "." then walk place pieces
    else if piece = ".." then walk place.dropLast pieces
    else walk (place ++ [piece]) pieces

/-- The place to which a path leads, if it leads anywhere. -/
def placeOf (disk : Disk) (path : String) : Place := walk (disk.origin path) (Path.pieces path)

theorem walk_append : ∀ (pieces others : List String) (place : Place),
    walk place (pieces ++ others) = walk (walk place pieces) others
  | [], _, _ => rfl
  | piece :: pieces, others, place => by
    rw [List.cons_append, walk, walk]
    split
    · exact walk_append pieces others place
    · split
      · exact walk_append pieces others _
      · exact walk_append pieces others _

/-- Pieces that can be followed lead to where they say. -/
theorem eq_walk_of_follow : ∀ {pieces : List String} {place found : Place}, disk.follow place pieces = .ok found →
    found = walk place pieces
  | [], _, _, h => (Except.ok.inj h).symm
  | piece :: pieces, place, found, h => by
    rw [follow] at h
    rw [walk]
    split at h
    · cases h
    · split at h
      next hdot => rw [if_pos hdot]; exact eq_walk_of_follow h
      next hdot =>
        rw [if_neg hdot]
        split at h
        next hup => rw [if_pos hup]; exact eq_walk_of_follow h
        next hup =>
          rw [if_neg hup]
          split at h
          · cases h
          · split at h
            · cases h
            · exact eq_walk_of_follow h

theorem follow_append : ∀ (pieces others : List String) (place : Place),
    disk.follow place (pieces ++ others) = (disk.follow place pieces).bind fun found => disk.follow found others
  | [], _, _ => rfl
  | piece :: pieces, others, place => by
    rw [List.cons_append, follow, follow]
    repeat' split
    all_goals first | rfl | exact follow_append pieces others _

/-- What is found at the end of a path stands where the path leads. -/
theorem find_eq_ok_iff : disk.find path = .ok (place, node) ↔ checkPath path = .ok () ∧
    disk.follow (disk.origin path) (Path.pieces path) = .ok place ∧ disk.node? place = some node := by
  unfold find
  cases checkPath path with
  | error fault => simp [bind, Except.bind]
  | ok _ =>
    cases disk.follow (disk.origin path) (Path.pieces path) with
    | error fault => simp [bind, Except.bind]
    | ok found =>
      simp only [bind, Except.bind]
      cases hnode : disk.node? found with
      | none =>
        simp only [reduceCtorEq, true_and, false_iff, not_and]
        rintro he hsome
        rw [← Except.ok.inj he, hnode] at hsome
        cases hsome
      | some n =>
        simp only [Except.ok.injEq, Prod.mk.injEq, true_and]
        constructor
        · rintro ⟨rfl, rfl⟩
          exact ⟨rfl, hnode⟩
        · rintro ⟨rfl, h⟩
          exact ⟨rfl, Option.some.inj (hnode.symm.trans h)⟩

theorem eq_placeOf_of_find (h : disk.find path = .ok (place, node)) : place = disk.placeOf path :=
  eq_walk_of_follow (find_eq_ok_iff.mp h).2.1

/-! ## Disks with more on them -/

/-- The other disk has all directories of this one, and something wherever this one has. -/
structure Keeps (disk other : Disk) : Prop where
  workingDirectory : other.workingDirectory = disk.workingDirectory
  directory : ∀ place, disk.node? place = some .directory → other.node? place = some .directory
  node : ∀ place, (disk.node? place).isSome → (other.node? place).isSome

theorem Keeps.refl (disk : Disk) : disk.Keeps disk := ⟨rfl, fun _ h => h, fun _ h => h⟩

theorem Keeps.trans {third : Disk} (h : disk.Keeps other) (h' : other.Keeps third) : disk.Keeps third :=
  ⟨h'.workingDirectory.trans h.workingDirectory, fun q hq => h'.directory q (h.directory q hq),
    fun q hq => h'.node q (h.node q hq)⟩

/-- Something put where no directory stands leaves the directories. -/
theorem keeps_put (h : disk.node? (place ++ [name]) ≠ some .directory) :
    disk.Keeps (disk.put (place ++ [name]) node) := by
  refine ⟨rfl, fun q hq => ?_, fun q hq => ?_⟩
  · rw [node?_put, if_neg, hq]
    rintro rfl
    exact h hq
  · rw [node?_put]
    split
    · rfl
    · exact hq

theorem Keeps.origin (h : disk.Keeps other) (path : String) : other.origin path = disk.origin path := by
  rw [Disk.origin, Disk.origin, h.workingDirectory]

theorem Keeps.placeOf (h : disk.Keeps other) (path : String) : other.placeOf path = disk.placeOf path := by
  rw [Disk.placeOf, Disk.placeOf, h.origin]

/-- A path that can be followed can be followed where there is more. -/
theorem Keeps.follow (h : disk.Keeps other) : ∀ {pieces : List String} {place found : Place},
    disk.follow place pieces = .ok found → other.follow place pieces = .ok found
  | [], _, _, hf => hf
  | piece :: pieces, place, found, hf => by
    rw [Disk.follow] at hf ⊢
    split at hf
    · cases hf
    next hdirectory =>
      rw [if_neg (not_not_intro (h.directory place (Decidable.of_not_not hdirectory)))]
      split at hf
      next hdot => rw [if_pos hdot]; exact h.follow hf
      next hdot =>
        rw [if_neg hdot]
        split at hf
        next hup => rw [if_pos hup]; exact h.follow hf
        next hup =>
          rw [if_neg hup]
          split at hf
          · cases hf
          next hshort =>
            rw [if_neg hshort]
            split at hf
            · cases hf
            next hthere =>
              have hnode : other.node? (place ++ [piece]) ≠ none :=
                Option.isSome_iff_ne_none.mp (h.node _ (Option.isSome_iff_ne_none.mpr (by simpa using hthere)))
              rw [if_neg (by simpa using hnode)]
              exact h.follow hf

/-! ## Removing -/

theorem lookup_filter_place (keep : Place → Bool) (place : Place) : ∀ nodes : List (Place × DiskNode),
    (nodes.filter fun e => keep e.1).lookup place = if keep place then nodes.lookup place else none
  | [] => by simp
  | (p, n) :: nodes => by
    have ih := lookup_filter_place keep place nodes
    rw [List.filter_cons, lookup_cons_eq]
    dsimp only
    by_cases he : place = p
    · subst he
      by_cases hp : keep place = true
      · rw [if_pos hp, if_pos hp, lookup_cons_eq, if_pos rfl, if_pos rfl]
      · rw [if_neg hp, if_neg hp, ih, if_neg hp]
    · rw [if_neg he, ← ih]
      split
      · rw [lookup_cons_eq, if_neg he]
      · rfl

/-- What is left on a disk of which some places are kept. -/
theorem node?_filter (disk : Disk) (keep : Place → Bool) {q : Place} (hq : q ≠ []) :
    ({ disk with nodes := disk.nodes.filter fun e => keep e.1 } : Disk).node? q =
      if keep q then disk.node? q else none := by
  rw [node?, node?, if_neg hq, if_neg hq, lookup_filter_place]

theorem isPrefixOf_eq_decide (place q : Place) : place.isPrefixOf q = decide (place <+: q) := by
  rw [Bool.eq_iff_iff, List.isPrefixOf_iff_prefix, decide_eq_true_iff]

/-- The other disk has nothing below the place, and everywhere else what this one has, but perhaps nothing at the place
itself. -/
structure Empties (disk other : Disk) (place : Place) : Prop where
  workingDirectory : other.workingDirectory = disk.workingDirectory
  outside : ∀ q, ¬place <+: q → other.node? q = disk.node? q
  below : ∀ name below, other.node? (place ++ name :: below) = none
  node : other.node? place = disk.node? place ∨ other.node? place = none

theorem empties_clearBelow (disk : Disk) (place : Place) : disk.Empties (disk.clearBelow place) place := by
  have hnode : ∀ q, (disk.clearBelow place).node? q = if place <+: q ∧ q ≠ place then none else disk.node? q := by
    intro q
    by_cases hroot : q = []
    · have hself : ¬(place <+: q ∧ q ≠ place) := fun h => h.2 (hroot.trans (List.prefix_nil.mp (hroot ▸ h.1)).symm)
      rw [if_neg hself, hroot]
      rfl
    · refine (node?_filter disk (fun p => !(place.isPrefixOf p && p ≠ place)) hroot).trans ?_
      rw [isPrefixOf_eq_decide, ← Bool.decide_and]
      by_cases hbelow : place <+: q ∧ q ≠ place
      · rw [decide_eq_true hbelow, if_pos hbelow]
        rfl
      · rw [decide_eq_false hbelow, if_neg hbelow]
        rfl
  refine ⟨rfl, fun q hq => ?_, fun name below => ?_, .inl ?_⟩
  · rw [hnode, if_neg fun h => hq h.1]
  · rw [hnode, if_pos ⟨List.prefix_append _ _, by simp⟩]
  · rw [hnode, if_neg fun h => h.2 rfl]

theorem empties_removeBelow (disk : Disk) (place : Place) :
    disk.Empties (disk.removeBelow place) place ∧ (place ≠ [] → (disk.removeBelow place).node? place = none) := by
  have hnode : ∀ q, q ≠ [] → (disk.removeBelow place).node? q = if place <+: q then none else disk.node? q := by
    intro q hroot
    refine (node?_filter disk (fun p => !place.isPrefixOf p) hroot).trans ?_
    rw [isPrefixOf_eq_decide]
    by_cases hbelow : place <+: q
    · rw [decide_eq_true hbelow, if_pos hbelow]
      rfl
    · rw [decide_eq_false hbelow, if_neg hbelow]
      rfl
  have hself : place ≠ [] → (disk.removeBelow place).node? place = none := fun hroot => by
    rw [hnode place hroot, if_pos List.prefix_rfl]
  refine ⟨⟨rfl, fun q hq => ?_, fun name below => ?_, ?_⟩, hself⟩
  · by_cases hroot : q = []
    · rw [hroot]
      rfl
    · rw [hnode q hroot, if_neg hq]
  · rw [hnode _ (by simp), if_pos (List.prefix_append _ _)]
  · by_cases hroot : place = []
    · rw [hroot]
      exact .inl rfl
    · exact .inr (hself hroot)

/-- **Where a path leads to a directory, that is removed with all that is in it, or only emptied; nothing else is
touched.** -/
theorem empties_removeDirectory (h : disk.find path = .ok (place, .directory)) :
    disk.Empties (disk.removeDirectory path).2 place ∧
      ((disk.removeDirectory path).1 = .ok () → place ≠ [] → (disk.removeDirectory path).2.node? place = none) := by
  rw [removeDirectory, h]
  dsimp only
  split
  · exact ⟨empties_clearBelow disk place, fun hok => nomatch hok⟩
  · exact ⟨empties_clearBelow disk place, fun hok => nomatch hok⟩
  · exact ⟨(empties_removeBelow disk place).1, fun _ => (empties_removeBelow disk place).2⟩

/-- Where a path leads to no directory, nothing is removed. -/
theorem removeDirectory_of_no_directory (h : ∀ place, disk.find path ≠ .ok (place, .directory)) :
    (disk.removeDirectory path).2 = disk := by
  rw [removeDirectory]
  cases hfind : disk.find path with
  | error fault => rfl
  | ok found =>
    obtain ⟨place, node⟩ := found
    cases node with
    | directory => exact absurd hfind (h place)
    | file content => rfl

/-- What is left was there before. -/
theorem Empties.node?_of_some (h : disk.Empties other place) {q : Place} (hq : other.node? q = some node) :
    disk.node? q = some node := by
  by_cases hinside : place <+: q
  · obtain ⟨below, rfl⟩ := hinside
    cases below with
    | nil =>
      rw [List.append_nil] at hq ⊢
      rcases h.node with hsame | hnone
      · rwa [hsame] at hq
      · cases hnone.symm.trans hq
    | cons name below => cases (h.below name below).symm.trans hq
  · rwa [h.outside q hinside] at hq

end Disk

end ContractStubs
