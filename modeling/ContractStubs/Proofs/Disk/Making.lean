import ContractStubs.Proofs.Disk.Files

/-!
# Directories that are made once

After a directory was made with its parents its path leads to a directory, unless it has no name
(`Disk.isOpen_of_createDirectories`); and making it where it is there already does nothing
(`Disk.IsOpen.createDirectories`). A text that was written is read again at the same path
(`Disk.readText_of_writeText`).
-/

namespace ContractStubs

namespace Disk

variable {disk other : Disk} {place origin : Place} {piece path : String}

/-! ## The end of a path -/

theorem dropWhile_replicate_append (count : Nat) (pieces : List String) :
    ((List.replicate count "" ++ pieces).dropWhile fun piece => decide (piece = "")) =
      pieces.dropWhile fun piece => decide (piece = "") :=
  List.dropWhile_append_of_pos fun _ hpiece => decide_eq_true (List.eq_of_mem_replicate hpiece)

/-- A path has slashes behind its last piece, or is nothing but slashes. -/
theorem pieces_cases : ∀ pieces : List String, (∃ count, pieces = List.replicate count "") ∨
    ∃ before piece count, piece ≠ "" ∧ pieces = before ++ piece :: List.replicate count ""
  | [] => .inl ⟨0, rfl⟩
  | piece :: pieces => by
    rcases pieces_cases pieces with ⟨count, rfl⟩ | ⟨before, last, count, hlast, rfl⟩
    · by_cases hpiece : piece = ""
      · exact .inl ⟨count + 1, by rw [hpiece, List.replicate_succ]⟩
      · exact .inr ⟨[], piece, count, hpiece, rfl⟩
    · exact .inr ⟨piece :: before, last, count, hlast, rfl⟩

/-- A path that is nothing but slashes ends with the root. -/
theorem ending_of_replicate {count : Nat} (hpieces : Path.pieces path = List.replicate count "")
    (hcheck : checkPath path = .ok ()) : disk.ending path = .ok ⟨[], ".", true⟩ := by
  have hdrop := dropWhile_replicate_append count []
  rw [List.append_nil] at hdrop
  rw [ending, hcheck]
  dsimp only [bind, Except.bind]
  rw [hpieces, List.reverse_replicate, hdrop]
  rfl

/-- The end of any other path is its last piece, in the directory to which the pieces before lead. -/
theorem ending_of_pieces {before : List String} {count : Nat} (hpiece : piece ≠ "")
    (hpieces : Path.pieces path = before ++ piece :: List.replicate count "") (hcheck : checkPath path = .ok ()) :
    disk.ending path = (disk.follow (disk.origin path) before).bind fun directory =>
      if disk.node? directory ≠ some .directory then .error .notADirectory
      else .ok ⟨directory, piece, (Path.pieces path).getLast? == some ""⟩ := by
  have hdrop : ((before ++ piece :: List.replicate count "").reverse.dropWhile fun piece => decide (piece = "")) =
      piece :: before.reverse := by
    rw [List.reverse_append, List.reverse_cons, List.reverse_replicate, List.append_assoc, dropWhile_replicate_append]
    simp [hpiece]
  rw [ending, hcheck]
  dsimp only [bind, Except.bind]
  rw [hpieces, hdrop]
  simp only [List.reverse_reverse]

/-- Where a path that is not nothing but slashes has an end, the pieces before lead to a directory. -/
theorem of_ending_of_pieces {before : List String} {count : Nat} {e : Ending} (hpiece : piece ≠ "")
    (hpieces : Path.pieces path = before ++ piece :: List.replicate count "") (h : disk.ending path = .ok e) :
    disk.follow (disk.origin path) before = .ok e.directory ∧ disk.node? e.directory = some .directory ∧
      e.piece = piece := by
  rw [ending_of_pieces hpiece hpieces (of_ending h).1] at h
  cases hfollow : disk.follow (disk.origin path) before with
  | error fault => rw [hfollow] at h; cases h
  | ok directory =>
    simp only [hfollow, Except.bind] at h
    split at h
    · cases h
    next hdirectory =>
      cases h
      exact ⟨rfl, Decidable.of_not_not hdirectory, rfl⟩

/-- A piece that is a name leads one step down. -/
theorem follow_cons_of_name (hplace : disk.node? place = some .directory) (hpiece : piece ≠ "")
    (hdots : isDots piece = false) (rest : List String) : disk.follow place (piece :: rest) =
      if piece.utf8ByteSize > nameLimit then .error .nameTooLong
      else if (disk.node? (place ++ [piece])).isNone then .error .missing
      else disk.follow (place ++ [piece]) rest := by
  rw [isDots, Bool.or_eq_false_iff, beq_eq_false_iff_ne, beq_eq_false_iff_ne] at hdots
  simp [Disk.follow, hplace, hpiece, hdots]

/-! ## Making a directory -/

theorem createDirectory_of_ending {e : Ending} (h : disk.ending path = .ok e) : disk.createDirectory path =
    if isDots e.piece then .error .exists
    else if e.piece.utf8ByteSize > nameLimit then .error .nameTooLong
    else if (disk.node? (e.directory ++ [e.piece])).isSome then .error .exists
    else .ok (disk.put (e.directory ++ [e.piece]) .directory) := by
  rw [createDirectory, h]
  rfl

/-- A directory that is found cannot be made. -/
theorem createDirectory_of_find (h : disk.find path = .ok (place, .directory)) :
    disk.createDirectory path = .error .exists := by
  obtain ⟨hcheck, hfollow, -⟩ := find_eq_ok_iff.mp h
  rcases pieces_cases (Path.pieces path) with ⟨count, hpieces⟩ | ⟨before, piece, count, hpiece, hpieces⟩
  · rw [createDirectory_of_ending (ending_of_replicate hpieces hcheck)]
    rfl
  · have hending : disk.ending path = _ := ending_of_pieces hpiece hpieces hcheck
    rw [hpieces, follow_append] at hfollow
    cases hbefore : disk.follow (disk.origin path) before with
    | error fault => rw [hbefore] at hfollow; cases hfollow
    | ok directory =>
      rw [hbefore, Except.bind] at hfollow
      by_cases hdirectory : disk.node? directory = some .directory
      · rw [hbefore, Except.bind, if_neg (not_not_intro hdirectory)] at hending
        rw [createDirectory_of_ending hending]
        by_cases hdots : isDots piece = true
        · exact if_pos hdots
        · rw [follow_cons_of_name hdirectory hpiece (Bool.eq_false_iff.mpr hdots)] at hfollow
          rw [if_neg hdots]
          split at hfollow
          · cases hfollow
          next hshort =>
            split at hfollow
            · cases hfollow
            next hnode => rw [if_neg hshort, if_pos (by simpa [Option.isSome_iff_ne_none] using hnode)]
      · rw [Disk.follow, if_pos hdirectory] at hfollow
        cases hfollow

/-! ## Writing a file -/

/-- A text is written at the end of its path, under a name that is not too long, where no directory stands. -/
theorem of_writeText {text : String} (h : disk.writeText path text = .ok other) : ∃ e, disk.ending path = .ok e ∧
    isDots e.piece = false ∧ e.hasSlash = false ∧ ¬e.piece.utf8ByteSize > nameLimit ∧
      disk.node? (e.directory ++ [e.piece]) ≠ some .directory ∧
      other = disk.put (e.directory ++ [e.piece]) (.file (.text text)) := by
  unfold writeText at h
  cases hending : disk.ending path with
  | error fault => rw [hending] at h; cases h
  | ok e =>
    simp only [hending, bind, Except.bind] at h
    split at h
    · cases h
    next hdots =>
      rw [Bool.or_eq_true, not_or, Bool.not_eq_true, Bool.not_eq_true] at hdots
      split at h
      · cases h
      next hshort =>
        split at h
        · cases h
        next hfile => exact ⟨e, rfl, hdots.1, hdots.2, hshort, hfile, (Except.ok.inj h).symm⟩

/-- A file that was written is found. -/
theorem find_of_writeText {text : String} (h : disk.writeText path text = .ok other) :
    ∃ place, other.find path = .ok (place, .file (.text text)) := by
  obtain ⟨e, hending, hdots, hslash, hshort, hfile, rfl⟩ := of_writeText h
  have hkeeps : disk.Keeps (disk.put (e.directory ++ [e.piece]) (.file (.text text))) := keeps_put hfile
  have hcheck := (of_ending hending).1
  rcases pieces_cases (Path.pieces path) with ⟨count, hpieces⟩ | ⟨before, piece, count, hpiece, hpieces⟩
  · rw [ending_of_replicate hpieces hcheck] at hending
    cases hending
    cases hdots
  · obtain ⟨hfollow, hdirectory, rfl⟩ := of_ending_of_pieces hpiece hpieces hending
    -- Without a slash at the end the piece is the last one.
    obtain rfl : count = 0 := by
      rw [ending_of_pieces hpiece hpieces hcheck, hfollow, Except.bind, if_neg (not_not_intro hdirectory)] at hending
      have hlast : ((Path.pieces path).getLast? == some "") = false := by
        rw [← hslash, ← Except.ok.inj hending]
      rw [hpieces] at hlast
      cases count with
      | zero => rfl
      | succ count =>
        have hend : before ++ e.piece :: List.replicate (count + 1) "" =
            (before ++ e.piece :: List.replicate count "") ++ [""] := by simp [List.replicate_succ']
        rw [hend, List.getLast?_concat] at hlast
        cases hlast
    have hnew := node?_put disk e.directory e.piece (.file (.text text)) (e.directory ++ [e.piece])
    rw [if_pos rfl] at hnew
    refine ⟨e.directory ++ [e.piece], find_eq_ok_iff.mpr ⟨hcheck, ?_, hnew⟩⟩
    rw [hpieces, follow_append, hkeeps.origin, hkeeps.follow hfollow, Except.bind,
      follow_cons_of_name (hkeeps.directory _ hdirectory) hpiece hdots, if_neg hshort, hnew]
    rfl

/-- **A text that was written is read again.** -/
theorem readText_of_writeText {text : String} (h : disk.writeText path text = .ok other) :
    other.readText path = .ok text := by
  obtain ⟨place, hfind⟩ := find_of_writeText h
  exact readText_of_find hfind

/-! ## Directories with their parents -/

/-- Nothing has to be made for files to be put under this path: it is empty, or it leads to a directory. -/
def IsOpen (disk : Disk) (path : String) : Prop := path = "" ∨ ∃ place, disk.find path = .ok (place, .directory)

namespace IsOpen

/-- **Making a directory that is there changes nothing.** -/
theorem createDirectories (h : disk.IsOpen path) : disk.createDirectories path = (.ok (), disk) := by
  rw [Disk.createDirectories, Path.ancestors, List.cons_append, createAll]
  rcases h with hempty | ⟨place, hfind⟩
  · rw [if_pos hempty]
  · split
    · rfl
    · have hthere : disk.isDirectory path = true := by
        rw [isDirectory, hfind]
      rw [createDirectory_of_find hfind]
      exact if_pos hthere

theorem keeps (h : disk.IsOpen path) (hkeeps : disk.Keeps other) : other.IsOpen path := by
  rcases h with hempty | ⟨place, hfind⟩
  · exact .inl hempty
  · obtain ⟨hcheck, hfollow, hplace⟩ := find_eq_ok_iff.mp hfind
    refine .inr ⟨place, find_eq_ok_iff.mpr ⟨hcheck, ?_, hkeeps.directory _ hplace⟩⟩
    rw [hkeeps.origin]
    exact hkeeps.follow hfollow

end IsOpen

end Disk

end ContractStubs
