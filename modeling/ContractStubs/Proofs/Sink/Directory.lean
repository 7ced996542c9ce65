import ContractStubs.Proofs.Disk.Children
import ContractStubs.Sink.Directory

/-!
# Files that stay in their directory

A sink accepts no name that leads anywhere but one step down (`DirectorySink.isPlainName_of_isValidName`). What becomes
of a file is one of four things (`DirectorySink.Adds`), whatever the file system is. On a disk, in each of them the sink
looks at one child of its directory, changes nothing else, and has an account that fits the disk
(`DirectorySink.add_staysInside`).
-/

namespace ContractStubs

namespace DirectorySink

variable {s after : DirectorySink} {disk other left : Disk} {name text : String} {answer : Except Failure Unit}

/-! ## Names -/

theorem isValidName_iff : isValidName name = true ↔
    name ≠ "" ∧ '/' ∉ name.toList ∧ '\\' ∉ name.toList ∧ startsWith "." name = false := by
  simp [isValidName, and_assoc]

/-- **A name that is accepted leads one step down.** -/
theorem isPlainName_of_isValidName (h : isValidName name = true) : Disk.IsPlainName name := by
  obtain ⟨hne, hslash, -, hdot⟩ := isValidName_iff.mp h
  refine ⟨hne, ?_, hslash⟩
  rw [Disk.isDots, Bool.or_eq_false_iff, beq_eq_false_iff_ne, beq_eq_false_iff_ne]
  constructor <;> rintro rfl <;> revert hdot <;> decide

/-- The path of a file in the directory. -/
def pathOf (s : DirectorySink) (name : String) : String := Path.join s.root name

/-! ## What becomes of a file -/

section FileSystem

variable {σ : Type} {fs : FileSystem σ} {state next : σ}

/-- What becomes of a file: the answer, the sink and the file system. -/
inductive Adds (fs : FileSystem σ) (s : DirectorySink) (state : σ) (name text : String) :
    Except Failure Unit → DirectorySink → σ → Prop where
  | refused : isValidName name = false → Adds fs s state name text (.error (.badFileName name)) s state
  | unchanged : isValidName name = true → fs.readText state (s.pathOf name) = .ok text →
      Adds fs s state name text (.ok ()) { s with unchanged := s.unchanged ++ [s.pathOf name] } state
  | failed {fault : DiskFault} : isValidName name = true → fs.readText state (s.pathOf name) ≠ .ok text →
      fs.writeText state (s.pathOf name) text = .error fault → Adds fs s state name text (.error (.disk fault)) s state
  | written {next : σ} : isValidName name = true → fs.readText state (s.pathOf name) ≠ .ok text →
      fs.writeText state (s.pathOf name) text = .ok next →
      Adds fs s state name text (.ok ()) { s with written := s.written ++ [s.pathOf name] } next

theorem addOn_of_readText_ne (hname : isValidName name = true)
    (hread : fs.readText state (s.pathOf name) ≠ .ok text) :
    s.addOn fs state name text = addOn.finish fs s state (s.pathOf name) text := by
  rw [pathOf] at hread ⊢
  cases h : fs.readText state (Path.join s.root name) with
  | error fault => simp [addOn, hname, h]
  | ok content =>
    have hcontent : content ≠ text := fun he => hread (he ▸ h)
    simp [addOn, hname, h, hcontent]

theorem Adds.addOn_eq (h : s.Adds fs state name text answer after next) :
    s.addOn fs state name text = (answer, after, next) := by
  cases h with
  | refused hname => rw [addOn, hname]; rfl
  | unchanged hname hread =>
    rw [pathOf] at hread ⊢
    simp [addOn, hname, hread]
  | failed hname hread hwrite => rw [addOn_of_readText_ne hname hread, addOn.finish, hwrite]
  | written hname hread hwrite => rw [addOn_of_readText_ne hname hread, addOn.finish, hwrite]

theorem adds (fs : FileSystem σ) (s : DirectorySink) (state : σ) (name text : String) :
    s.Adds fs state name text (s.addOn fs state name text).1 (s.addOn fs state name text).2.1
      (s.addOn fs state name text).2.2 := by
  suffices h : ∃ answer after next, s.Adds fs state name text answer after next by
    obtain ⟨answer, after, next, h⟩ := h
    rwa [h.addOn_eq]
  by_cases hname : isValidName name = true
  · by_cases hread : fs.readText state (s.pathOf name) = .ok text
    · exact ⟨_, _, _, .unchanged hname hread⟩
    · cases hwrite : fs.writeText state (s.pathOf name) text with
      | error fault => exact ⟨_, _, _, .failed hname hread hwrite⟩
      | ok next => exact ⟨_, _, _, .written hname hread hwrite⟩
  · exact ⟨_, _, _, .refused (Bool.eq_false_iff.mpr hname)⟩

/-- Only names that are accepted are taken, and each goes to the end of one account. -/
theorem Adds.of_ok (h : s.Adds fs state name text (.ok ()) after next) : isValidName name = true ∧
    (after = { s with unchanged := s.unchanged ++ [s.pathOf name] } ∧ next = state ∨
      after = { s with written := s.written ++ [s.pathOf name] }) := by
  cases h with
  | unchanged hname => exact ⟨hname, .inl ⟨rfl, rfl⟩⟩
  | written hname => exact ⟨hname, .inr rfl⟩

/-- A file that is not taken is on no account, and a bad name leaves the file system alone. -/
theorem Adds.of_error {failure : Failure} (h : s.Adds fs state name text (.error failure) after next) : after = s ∧
    ((∃ fault, failure = .disk fault) ∨ failure = .badFileName name ∧ isValidName name = false ∧ next = state) := by
  cases h with
  | refused hname => exact ⟨rfl, .inr ⟨rfl, hname, rfl⟩⟩
  | failed => exact ⟨rfl, .inl ⟨_, rfl⟩⟩

end FileSystem

/-! ## One child -/

theorem readText_pathOf (h : disk.AgreesAt other s.root name) (hname : isValidName name = true) :
    Disk.fileSystem.readText other (s.pathOf name) = Disk.fileSystem.readText disk (s.pathOf name) :=
  h.readText (isPlainName_of_isValidName hname)

theorem writeText_pathOf (h : disk.AgreesAt other s.root name) (hname : isValidName name = true) (text : String) :
    Disk.fileSystem.writeText other (s.pathOf name) text =
      (Disk.fileSystem.writeText disk (s.pathOf name) text).map fun _ =>
        other.put (disk.placeOf s.root ++ [name]) (.file (.text text)) :=
  h.writeText (isPlainName_of_isValidName hname) text

/-- **What becomes of a file is the same wherever the same stands under its name in the directory.** -/
theorem Adds.of_agreesAt (h : s.Adds Disk.fileSystem disk name text answer after left)
    (hagrees : disk.AgreesAt other s.root name) :
    ∃ left', s.Adds Disk.fileSystem other name text answer after left' ∧ left.AgreesAt left' s.root name := by
  cases h with
  | refused hname => exact ⟨other, .refused hname, hagrees⟩
  | unchanged hname hread => exact ⟨other, .unchanged hname ((readText_pathOf hagrees hname).trans hread), hagrees⟩
  | failed hname hread hwrite =>
    have hwrite' := writeText_pathOf hagrees hname text
    rw [hwrite] at hwrite'
    rw [← readText_pathOf hagrees hname] at hread
    exact ⟨other, .failed hname hread hwrite', hagrees⟩
  | written hname hread hwrite =>
    have hwrite' := writeText_pathOf hagrees hname text
    rw [hwrite] at hwrite'
    rw [← readText_pathOf hagrees hname] at hread
    obtain ⟨-, hleads, -, hfile, rfl⟩ := Disk.of_writeText_join (isPlainName_of_isValidName hname) hwrite
    exact ⟨_, .written hname hread hwrite', hagrees.put hleads hfile _⟩

/-- What stands anywhere else stays. -/
theorem Adds.node?_eq (h : s.Adds Disk.fileSystem disk name text answer after left) {place : Place}
    (hplace : place ≠ disk.placeOf s.root ++ [name]) : left.node? place = disk.node? place := by
  cases h with
  | refused => rfl
  | unchanged => rfl
  | failed => rfl
  | written hname _ hwrite =>
    obtain ⟨-, -, -, -, rfl⟩ := Disk.of_writeText_join (isPlainName_of_isValidName hname) hwrite
    rw [Disk.node?_put, if_neg hplace]

/-- A file that was taken can be read. -/
theorem Adds.readText_of_ok (h : s.Adds Disk.fileSystem disk name text (.ok ()) after left) :
    left.readText (s.pathOf name) = .ok text := by
  cases h with
  | unchanged _ hread => exact hread
  | written hname _ hwrite =>
    have hplain := isPlainName_of_isValidName hname
    obtain ⟨hcheck, hleads, hshort, hfile, rfl⟩ := Disk.of_writeText_join hplain hwrite
    have hkeeps : disk.Keeps (disk.put (disk.placeOf s.root ++ [name]) (.file (.text text))) := Disk.keeps_put hfile
    have hnode := Disk.node?_put disk (disk.placeOf s.root) name (.file (.text text)) (disk.placeOf s.root ++ [name])
    rw [if_pos rfl, ← hkeeps.placeOf] at hnode
    exact Disk.readText_of_find (Disk.find_join hplain hcheck (hleads.keeps hkeeps) hshort hnode)

theorem Adds.workingDirectory_eq (h : s.Adds Disk.fileSystem disk name text answer after left) :
    left.workingDirectory = disk.workingDirectory := by
  cases h with
  | refused => rfl
  | unchanged => rfl
  | failed => rfl
  | written hname _ hwrite =>
    obtain ⟨-, -, -, -, rfl⟩ := Disk.of_writeText_join (isPlainName_of_isValidName hname) hwrite
    rfl

/-- Of all that is on the disk, a sink that is given a file looks at one child of its directory and changes nothing
else, and its account fits what it leaves there. -/
structure StaysInside (s : DirectorySink) (disk : Disk) (name text : String) (answer : Except Failure Unit)
    (after : DirectorySink) (left : Disk) : Prop where
  /-- The path of a name that is accepted is one name longer than that of the directory, and leads one step further. -/
  path : isValidName name = true → Path.parts (s.pathOf name) = Path.parts s.root ++ [.name name] ∧
    ∀ other : Disk, other.placeOf (s.pathOf name) = other.placeOf s.root ++ [name]
  /-- With any other name the disk does not matter. -/
  unread : isValidName name = false → ∀ other : Disk, s.add other name text = (.error (.badFileName name), s, other)
  reads : ∀ other, disk.AgreesAt other s.root name →
    ∃ left', s.add other name text = (answer, after, left') ∧ left.AgreesAt left' s.root name
  writes : ∀ place, place ≠ disk.placeOf s.root ++ [name] → left.node? place = disk.node? place
  workingDirectory : left.workingDirectory = disk.workingDirectory
  refused : ∀ failure, answer = .error failure → after = s ∧
    ((∃ fault, failure = .disk fault) ∨ failure = .badFileName name ∧ isValidName name = false ∧ left = disk)
  taken : answer = .ok () → left.node? (disk.placeOf s.root ++ [name]) = some (.file (.text text)) ∧
    left.readText (s.pathOf name) = .ok text ∧
    (after = { s with unchanged := s.unchanged ++ [s.pathOf name] } ∧ left = disk ∨
      after = { s with written := s.written ++ [s.pathOf name] })

/-- **Whatever the name of a file is, on a disk without links the sink stays inside its directory.** -/
theorem add_staysInside (s : DirectorySink) (disk : Disk) (name text : String) : s.StaysInside disk name text
    (s.add disk name text).1 (s.add disk name text).2.1 (s.add disk name text).2.2 := by
  have h : s.Adds Disk.fileSystem disk name text (s.add disk name text).1 (s.add disk name text).2.1
      (s.add disk name text).2.2 := adds Disk.fileSystem s disk name text
  have hplace : (s.add disk name text).2.2.placeOf s.root = disk.placeOf s.root := by
    rw [Disk.placeOf, Disk.placeOf, Disk.origin, Disk.origin, h.workingDirectory_eq]
  refine ⟨fun hname => ?_, fun hname other => (Adds.refused hname).addOn_eq, fun other hagrees => ?_,
    fun place hne => h.node?_eq hne, h.workingDirectory_eq, fun failure hfailure => ?_, fun hok => ?_⟩
  · have hplain := isPlainName_of_isValidName hname
    exact ⟨hplain.parts_join s.root, fun other => hplain.placeOf_join other s.root⟩
  · obtain ⟨left, hadds, hleft⟩ := h.of_agreesAt hagrees
    exact ⟨left, hadds.addOn_eq, hleft⟩
  · rw [hfailure] at h
    exact h.of_error
  · rw [hok] at h
    obtain ⟨hname, haccount⟩ := h.of_ok
    have hread := h.readText_of_ok
    refine ⟨?_, hread, haccount⟩
    rw [← hplace]
    exact Disk.node?_of_readText_join (isPlainName_of_isValidName hname) hread

end DirectorySink

end ContractStubs
