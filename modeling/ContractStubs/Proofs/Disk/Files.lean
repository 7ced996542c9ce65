import ContractStubs.Proofs.Disk.Places
import ContractStubs.Proofs.Text.Ends

/-!
# Files in a directory

Making a directory with its parents makes directories and nothing else (`Disk.makesDirectories_createDirectories`).
What is found or written under a plain name behind the path of a directory stands in the directory that this path enters
(`Disk.find_join_eq`, `Disk.writeText_join_eq`). So a file that is written there stands there (`Disk.of_writeText_join`),
it is found again for as long as the disk keeps its directories (`Disk.find_join`), and what is read under a plain name
stands in the directory (`Disk.node?_of_readText_join`).
-/

namespace ContractStubs

/-! ## Joined paths -/

namespace Path

theorem afterOpening?_slash (cs : List Char) : (afterOpening? ['/'] cs).isSome ↔ ∃ rest, cs = '/' :: rest := by
  rw [Option.isSome_iff_exists]
  exact exists_congr fun _ => afterOpening?_eq_some_iff

/-- A path that starts at the root is one that starts with a slash. -/
theorem isAbsolute_iff {path : String} : isAbsolute path = true ↔ ∃ rest, path.toList = '/' :: rest := by
  rw [isAbsolute, startsWith, stripOpening?, Option.isSome_map]
  exact afterOpening?_slash path.toList

theorem endsWith_slash_iff {path : String} : endsWith "/" path = true ↔ ∃ start, path = start ++ "/" := by
  rw [endsWith, stripEnding?, Option.isSome_map]
  refine (afterOpening?_slash path.toList.reverse).trans ⟨?_, ?_⟩
  · rintro ⟨rest, h⟩
    refine ⟨String.ofList rest.reverse, String.toList_inj.mp ?_⟩
    rw [← List.reverse_reverse path.toList, h]
    simp
  · rintro ⟨start, rfl⟩
    exact ⟨start.toList.reverse, by simp⟩

end Path

namespace Disk

/-- A name that leads just one step down. -/
structure IsPlainName (name : String) : Prop where
  ne_empty : name ≠ ""
  not_dots : isDots name = false
  no_slash : '/' ∉ name.toList

variable {disk other : Disk} {place : Place} {name base text path : String} {node : DiskNode}

theorem IsPlainName.ne_dots (h : IsPlainName name) : name ≠ "." ∧ name ≠ ".." := by
  simpa [isDots] using h.not_dots

theorem IsPlainName.walk (h : IsPlainName name) (place : Place) : Disk.walk place [name] = place ++ [name] := by
  simp [Disk.walk, h.ne_empty, h.ne_dots]

theorem IsPlainName.pieces (h : IsPlainName name) : Path.pieces name = [name] := by
  refine textPieces_of_none fun c hc => decide_eq_false ?_
  rintro rfl
  exact h.no_slash hc

theorem IsPlainName.not_isAbsolute (h : IsPlainName name) : Path.isAbsolute name = false := by
  rw [Bool.eq_false_iff]
  intro habsolute
  obtain ⟨rest, hrest⟩ := Path.isAbsolute_iff.mp habsolute
  exact h.no_slash (by simp [hrest])

/-- A name behind a path stands behind one slash. -/
theorem IsPlainName.join_eq (h : IsPlainName name) (hbase : base ≠ "") :
    ∃ start, Path.join base name = start ++ "/" ++ name ∧ (base = start ∨ base = start ++ "/") := by
  rw [Path.join, h.not_isAbsolute]
  simp only [Bool.false_or, decide_eq_true_eq, if_neg hbase]
  split
  next hslash =>
    obtain ⟨start, rfl⟩ := Path.endsWith_slash_iff.mp hslash
    exact ⟨start, rfl, .inr rfl⟩
  next => exact ⟨base, rfl, .inl rfl⟩

theorem IsPlainName.join_empty (h : IsPlainName name) : Path.join "" name = name := by
  simp [Path.join, h.not_isAbsolute]

/-- The pieces of a joined path are those of the path before and the name; an empty piece at the end is lost. -/
theorem IsPlainName.pieces_join (h : IsPlainName name) (base : String) : ∃ before,
    Path.pieces (Path.join base name) = before ++ [name] ∧
      (Path.pieces base = before ∨ Path.pieces base = before ++ [""]) := by
  have hcut : ∀ start other, Path.pieces (start ++ "/" ++ other) = Path.pieces start ++ Path.pieces other :=
    fun start other => textPieces_append (d := '/') rfl (by simp) start other
  by_cases hbase : base = ""
  · subst hbase
    exact ⟨[], by rw [h.join_empty, h.pieces]; rfl, .inr rfl⟩
  · obtain ⟨start, hjoin, hstart⟩ := h.join_eq hbase
    refine ⟨Path.pieces start, by rw [hjoin, hcut, h.pieces], ?_⟩
    rcases hstart with rfl | rfl
    · exact .inl rfl
    · refine .inr ?_
      have hslash := hcut start ""
      rwa [String.append_empty] at hslash

theorem IsPlainName.isAbsolute_join (h : IsPlainName name) (base : String) :
    Path.isAbsolute (Path.join base name) = Path.isAbsolute base := by
  by_cases hbase : base = ""
  · subst hbase
    rw [h.join_empty, h.not_isAbsolute]
    rfl
  · have hchars : ∃ c rest more, base.toList = c :: rest ∧ (Path.join base name).toList = c :: (rest ++ more) := by
      obtain ⟨c, rest, hc⟩ := List.exists_cons_of_ne_nil fun he => hbase (String.toList_eq_nil_iff.mp he)
      rw [Path.join, h.not_isAbsolute]
      simp only [Bool.false_or, decide_eq_true_eq, if_neg hbase]
      split
      · exact ⟨c, rest, name.toList, hc, by simp [hc]⟩
      · exact ⟨c, rest, '/' :: name.toList, hc, by simp [hc]⟩
    obtain ⟨c, rest, more, hbase, hjoin⟩ := hchars
    rw [Bool.eq_iff_iff, Path.isAbsolute_iff, Path.isAbsolute_iff, hbase, hjoin]
    simp

theorem IsPlainName.origin_join (h : IsPlainName name) (disk : Disk) (base : String) :
    disk.origin (Path.join base name) = disk.origin base := by
  rw [origin, origin, h.isAbsolute_join]

/-- A joined path leads one step further. -/
theorem IsPlainName.placeOf_join (h : IsPlainName name) (disk : Disk) (base : String) :
    disk.placeOf (Path.join base name) = disk.placeOf base ++ [name] := by
  obtain ⟨before, hjoin, hbase⟩ := h.pieces_join base
  have hsame : Disk.walk (disk.origin base) (Path.pieces base) = Disk.walk (disk.origin base) before := by
    rcases hbase with hbase | hbase
    · rw [hbase]
    · rw [hbase, walk_append]
      rfl
  rw [placeOf, placeOf, h.origin_join, hjoin, walk_append, h.walk, hsame]

/-- A path can be followed at all if one that goes on from it can. -/
theorem IsPlainName.checkPath_of_join (h : IsPlainName name) (hbase : base ≠ "")
    (hcheck : checkPath (Path.join base name) = .ok ()) : checkPath base = .ok () := by
  obtain ⟨start, hjoin, hstart⟩ := h.join_eq hbase
  have hsub : ∀ c ∈ base.toList, c ∈ (Path.join base name).toList := by
    intro c hc
    rw [hjoin]
    rcases hstart with rfl | rfl
    · simp [hc]
    · simp only [String.toList_append, List.mem_append] at hc ⊢
      exact .inl hc
  have hsize : base.utf8ByteSize ≤ (Path.join base name).utf8ByteSize := by
    rw [hjoin]
    rcases hstart with rfl | rfl <;> simp only [String.utf8ByteSize_append] <;> omega
  unfold checkPath at hcheck ⊢
  split at hcheck
  · cases hcheck
  next hzero =>
    split at hcheck
    · cases hcheck
    · split at hcheck
      · cases hcheck
      next hshort =>
        rw [if_neg, if_neg hbase, if_neg (by omega)]
        intro hmem
        exact hzero (List.contains_iff_mem.mpr (hsub _ (List.contains_iff_mem.mp hmem)))

/-! ## Making directories -/

/-- The other disk has some more directories, each under a plain name, where there was nothing. -/
inductive MakesDirectories (disk : Disk) : Disk → Prop where
  | refl : MakesDirectories disk disk
  | step {other : Disk} {place : Place} {name : String} : MakesDirectories disk other → IsPlainName name →
      other.node? (place ++ [name]) = none → MakesDirectories disk (other.put (place ++ [name]) .directory)

theorem MakesDirectories.trans {third : Disk} (h : disk.MakesDirectories other) (h' : other.MakesDirectories third) :
    disk.MakesDirectories third := by
  induction h' with
  | refl => exact h
  | step _ hname hnode ih => exact ih.step hname hnode

theorem MakesDirectories.keeps (h : disk.MakesDirectories other) : disk.Keeps other := by
  induction h with
  | refl => exact .refl disk
  | step _ _ hnode ih => exact ih.trans (keeps_put (by simp [hnode]))

/-- What stands at a place stood there before or is a new directory, under a plain name. -/
theorem MakesDirectories.node?_eq (h : disk.MakesDirectories other) (place : Place) (name : String) :
    other.node? (place ++ [name]) = disk.node? (place ++ [name]) ∨
      other.node? (place ++ [name]) = some .directory ∧ disk.node? (place ++ [name]) = none ∧ IsPlainName name := by
  induction h with
  | refl => exact .inl rfl
  | @step other place' name' _ hname hnode ih =>
    rw [node?_put]
    split
    next he =>
      obtain ⟨rfl, hlast⟩ := List.append_inj' he rfl
      obtain rfl := List.singleton_inj.mp hlast
      rw [hnode] at ih
      exact .inr ⟨rfl, (ih.resolve_right (by simp)).symm, hname⟩
    next => exact ih

theorem of_ending {e : Ending} (h : disk.ending path = .ok e) : checkPath path = .ok () ∧
    (e.piece = "." ∨ e.piece ≠ "" ∧ '/' ∉ e.piece.toList) := by
  unfold ending at h
  cases hcheck : checkPath path with
  | error fault => rw [hcheck] at h; cases h
  | ok _ =>
    refine ⟨rfl, ?_⟩
    simp only [hcheck, bind, Except.bind] at h
    split at h
    · cases h
      exact .inl rfl
    next piece before hpieces =>
      split at h
      · cases h
      · split at h
        · cases h
        · cases h
          refine .inr ⟨?_, fun hslash => ?_⟩
          · have hhead := List.head?_dropWhile_not (fun piece => decide (piece = "")) (Path.pieces path).reverse
            rw [hpieces] at hhead
            simpa using hhead
          · have hmem : piece ∈ (Path.pieces path).reverse :=
              (List.dropWhile_sublist _).subset (hpieces ▸ List.mem_cons_self)
            have hnone := eq_false_of_mem_textPieces (List.mem_reverse.mp hmem) '/' hslash
            simp at hnone

theorem makesDirectories_createDirectory (h : disk.createDirectory path = .ok other) :
    disk.MakesDirectories other := by
  unfold createDirectory at h
  cases hending : disk.ending path with
  | error fault => rw [hending] at h; cases h
  | ok e =>
    obtain ⟨-, hpiece⟩ := of_ending hending
    simp only [hending, bind, Except.bind] at h
    split at h
    · cases h
    next hdots =>
      split at h
      · cases h
      · split at h
        · cases h
        next hnone =>
          cases h
          have hplain : e.piece ≠ "" ∧ '/' ∉ e.piece.toList :=
            hpiece.resolve_left fun he => hdots (by simp [isDots, he])
          exact MakesDirectories.refl.step ⟨hplain.1, by simpa using hdots, hplain.2⟩ (by simpa using hnone)

theorem makesDirectories_createAll : ∀ (paths : List String) (disk : Disk),
    disk.MakesDirectories (createAll paths disk).2
  | [], _ => .refl
  | path :: parents, disk => by
    have ih := makesDirectories_createAll parents disk
    rw [createAll]
    split
    · exact .refl
    · split
      next h => exact makesDirectories_createDirectory h
      next =>
        split
        next h => rw [h] at ih; exact ih
        next h =>
          rw [h] at ih
          split
          next h' => exact ih.trans (makesDirectories_createDirectory h')
          next => split <;> exact ih
      next => split <;> exact .refl

/-- **Making a directory with its parents makes directories only.** -/
theorem makesDirectories_createDirectories (disk : Disk) (path : String) :
    disk.MakesDirectories (disk.createDirectories path).2 := makesDirectories_createAll _ _

/-! ## Entering a directory -/

/-- The path leads to a directory. -/
structure LeadsToDirectory (disk : Disk) (base : String) : Prop where
  follow : disk.follow (disk.origin base) (Path.pieces base) = .ok (disk.placeOf base)
  directory : disk.node? (disk.placeOf base) = some .directory

theorem LeadsToDirectory.keeps (h : disk.LeadsToDirectory base) (hkeeps : disk.Keeps other) :
    other.LeadsToDirectory base := by
  refine ⟨?_, ?_⟩
  · rw [hkeeps.origin, hkeeps.placeOf]
    exact hkeeps.follow h.follow
  · rw [hkeeps.placeOf]
    exact hkeeps.directory _ h.directory

theorem LeadsToDirectory.find_eq_ok (h : disk.LeadsToDirectory base) (hcheck : checkPath base = .ok ()) :
    disk.find base = .ok (disk.placeOf base, .directory) := find_eq_ok_iff.mpr ⟨hcheck, h.follow, h.directory⟩

/-- The place, if a directory stands there. -/
def inDirectory (disk : Disk) (place : Place) : Except DiskFault Place :=
  if disk.node? place = some .directory then .ok place else .error .notADirectory

/-- The place of the directory to which a path leads. -/
def enter (disk : Disk) (base : String) : Except DiskFault Place :=
  (disk.follow (disk.origin base) (Path.pieces base)).bind disk.inDirectory

theorem enter_eq_ok_iff : disk.enter base = .ok place ↔ disk.LeadsToDirectory base ∧ place = disk.placeOf base := by
  rw [enter]
  constructor
  · intro h
    cases hfollow : disk.follow (disk.origin base) (Path.pieces base) with
    | error fault => rw [hfollow] at h; cases h
    | ok found =>
      have hfound : found = disk.placeOf base := eq_walk_of_follow hfollow
      rw [hfollow] at h
      simp only [Except.bind, inDirectory] at h
      split at h
      next hdirectory =>
        cases h
        exact ⟨⟨hfound ▸ hfollow, hfound ▸ hdirectory⟩, hfound⟩
      next => cases h
  · rintro ⟨hleads, rfl⟩
    rw [hleads.follow]
    exact if_pos hleads.directory

/-- An empty piece at the end of a path makes no difference to a directory. -/
theorem enter_of_pieces {before : List String} (h : Path.pieces base = before ∨ Path.pieces base = before ++ [""]) :
    disk.enter base = (disk.follow (disk.origin base) before).bind disk.inDirectory := by
  rw [enter]
  rcases h with h | h
  · rw [h]
  · rw [h, follow_append]
    cases disk.follow (disk.origin base) before with
    | error fault => rfl
    | ok found => by_cases hdirectory : disk.node? found = some .directory <;>
        simp [Except.bind, Disk.follow, inDirectory, hdirectory]

/-! ## Writing and reading -/

/-- What is found under a plain name. -/
theorem find_join_eq (hname : IsPlainName name) : disk.find (Path.join base name) =
    (checkPath (Path.join base name)).bind fun _ => (disk.enter base).bind fun place =>
      if name.utf8ByteSize > nameLimit then .error .nameTooLong
      else match disk.node? (place ++ [name]) with
        | some node => .ok (place ++ [name], node)
        | none => .error .missing := by
  obtain ⟨before, hjoin, hbase⟩ := hname.pieces_join base
  rw [enter_of_pieces hbase, find, hname.origin_join, hjoin, follow_append]
  cases checkPath (Path.join base name) with
  | error fault => rfl
  | ok _ =>
    cases disk.follow (disk.origin base) before with
    | error fault => rfl
    | ok found =>
      by_cases hdirectory : disk.node? found = some .directory
      · simp only [bind, Except.bind, Disk.follow, inDirectory, hdirectory, hname.ne_empty, hname.ne_dots]
        by_cases hlong : name.utf8ByteSize > nameLimit
        · simp [hlong]
        · cases hnode : disk.node? (found ++ [name]) <;> simp [hlong, hnode]
      · simp [bind, Except.bind, Disk.follow, inDirectory, hdirectory]

/-- What becomes of a text that is written under a plain name. -/
theorem writeText_join_eq (hname : IsPlainName name) : disk.writeText (Path.join base name) text =
    (checkPath (Path.join base name)).bind fun _ => (disk.enter base).bind fun place =>
      if name.utf8ByteSize > nameLimit then .error .nameTooLong
      else if disk.node? (place ++ [name]) = some .directory then .error .isADirectory
      else .ok (disk.put (place ++ [name]) (.file (.text text))) := by
  obtain ⟨before, hjoin, hbase⟩ := hname.pieces_join base
  have hlast : ((before ++ [name]).reverse.dropWhile fun piece => decide (piece = "")) = name :: before.reverse := by
    simp [hname.ne_empty]
  have hslash : ((before ++ [name]).getLast? == some "") = false := by simp [hname.ne_empty]
  rw [enter_of_pieces hbase, writeText, ending]
  dsimp only
  rw [hjoin, hlast, hslash, hname.origin_join]
  cases checkPath (Path.join base name) with
  | error fault => rfl
  | ok _ =>
    simp only [bind, Except.bind, List.reverse_reverse]
    cases disk.follow (disk.origin base) before with
    | error fault => rfl
    | ok found =>
      by_cases hdirectory : disk.node? found = some .directory <;>
        simp [inDirectory, hdirectory, hname.not_dots]

/-- **A text that is written under a plain name stands in the directory**, and the path leads there. -/
theorem of_writeText_join (hname : IsPlainName name)
    (h : disk.writeText (Path.join base name) text = .ok other) :
    checkPath (Path.join base name) = .ok () ∧ disk.LeadsToDirectory base ∧ name.utf8ByteSize ≤ nameLimit ∧
      disk.node? (disk.placeOf base ++ [name]) ≠ some .directory ∧
      other = disk.put (disk.placeOf base ++ [name]) (.file (.text text)) := by
  rw [writeText_join_eq hname] at h
  cases hcheck : checkPath (Path.join base name) with
  | error fault => rw [hcheck] at h; cases h
  | ok _ =>
    cases hplace : disk.enter base with
    | error fault => rw [hcheck, hplace] at h; cases h
    | ok place =>
      obtain ⟨hleads, rfl⟩ := enter_eq_ok_iff.mp hplace
      simp only [hcheck, hplace, Except.bind] at h
      split at h
      · cases h
      next hshort =>
        split at h
        · cases h
        next hfile => exact ⟨rfl, hleads, Nat.not_lt.mp hshort, hfile, (Except.ok.inj h).symm⟩

/-- What stands under a plain name in the directory is found there. -/
theorem find_join (hname : IsPlainName name) (hcheck : checkPath (Path.join base name) = .ok ())
    (hleads : disk.LeadsToDirectory base) (hshort : name.utf8ByteSize ≤ nameLimit)
    (hnode : disk.node? (disk.placeOf base ++ [name]) = some node) :
    disk.find (Path.join base name) = .ok (disk.placeOf base ++ [name], node) := by
  rw [find_join_eq hname, hcheck, enter_eq_ok_iff.mpr ⟨hleads, rfl⟩]
  simp [Except.bind, Nat.not_lt.mpr hshort, hnode]

theorem readText_of_find {content : String} (h : disk.find path = .ok (place, .file (.text content))) :
    disk.readText path = .ok content := by
  rw [readText, h]
  rfl

/-- A text that is read under a plain name stands in the directory. -/
theorem node?_of_readText_join (hname : IsPlainName name) (h : disk.readText (Path.join base name) = .ok text) :
    disk.node? (disk.placeOf base ++ [name]) = some (.file (.text text)) := by
  unfold readText at h
  cases hfind : disk.find (Path.join base name) with
  | error fault => rw [hfind] at h; cases h
  | ok found =>
    obtain ⟨place, node⟩ := found
    have hplace : place = disk.placeOf base ++ [name] := by
      rw [eq_placeOf_of_find hfind, hname.placeOf_join]
    rw [hfind] at h
    rw [← hplace, (find_eq_ok_iff.mp hfind).2.2]
    simp only [bind, Except.bind] at h
    split at h
    · cases h
    · cases h
    next hnode =>
      cases h
      exact congrArg some (Prod.mk.inj hnode).2

end Disk

end ContractStubs
