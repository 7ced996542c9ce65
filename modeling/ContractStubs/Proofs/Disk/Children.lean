import ContractStubs.Proofs.Disk.Files

/-!
# Children of a directory

A plain name behind the path of a directory leads to what stands in the directory under this name, and is one more part
of the path (`Disk.IsPlainName.parts_join`). What is read and written there depends on the directory being entered and on
this one child only, so it is the same on two disks that agree there (`Disk.AgreesAt.readText`,
`Disk.AgreesAt.writeText`), whatever else they hold.
-/

namespace ContractStubs

/-! ## Joined paths by their parts -/

namespace Path

theorem filterMap_partOf?_concat (pieces : List String) (piece : String) :
    (pieces ++ [piece]).zipIdx.filterMap (fun (piece, index) => partOf? piece index) =
      pieces.zipIdx.filterMap (fun (piece, index) => partOf? piece index) ++
        (partOf? piece pieces.length).toList := by
  rw [List.zipIdx_append, List.filterMap_append]
  cases h : partOf? piece pieces.length <;> simp [h]

end Path

namespace Disk

variable {disk other : Disk} {place : Place} {name base text : String}

theorem IsPlainName.partOf? (h : IsPlainName name) (index : Nat) : Path.partOf? name index = some (.name name) := by
  rw [Path.partOf?, if_neg h.ne_empty, if_neg h.ne_dots.1, if_neg h.ne_dots.2]

/-- A plain name behind a path is one more part of it. -/
theorem IsPlainName.parts_join (h : IsPlainName name) (base : String) :
    Path.parts (Path.join base name) = Path.parts base ++ [.name name] := by
  obtain ⟨before, hjoin, hbase⟩ := h.pieces_join base
  rw [Path.parts, Path.parts, h.isAbsolute_join, hjoin, Path.filterMap_partOf?_concat, h.partOf?]
  rcases hbase with hbase | hbase
  · rw [hbase, List.append_assoc]
    rfl
  · rw [hbase, Path.filterMap_partOf?_concat, List.append_assoc]
    simp [Path.partOf?]

/-! ## Disks that agree at one child -/

/-- A directory that is entered is entered where there is more. -/
theorem Keeps.enter (h : disk.Keeps other) (hplace : disk.enter base = .ok place) :
    other.enter base = disk.enter base := by
  obtain ⟨hleads, rfl⟩ := enter_eq_ok_iff.mp hplace
  rw [hplace]
  exact enter_eq_ok_iff.mpr ⟨hleads.keeps h, (h.placeOf base).symm⟩

/-- Two disks on which a path leads to the same directory, or fails alike, and the same stands there under a name. -/
structure AgreesAt (disk other : Disk) (base name : String) : Prop where
  workingDirectory : other.workingDirectory = disk.workingDirectory
  enter : other.enter base = disk.enter base
  child : other.node? (disk.placeOf base ++ [name]) = disk.node? (disk.placeOf base ++ [name])

namespace AgreesAt

theorem refl (disk : Disk) (base name : String) : disk.AgreesAt disk base name := ⟨rfl, rfl, rfl⟩

theorem placeOf (h : disk.AgreesAt other base name) : other.placeOf base = disk.placeOf base := by
  rw [Disk.placeOf, Disk.placeOf, origin, origin, h.workingDirectory]

/-- The same is read there. -/
theorem readText (h : disk.AgreesAt other base name) (hname : IsPlainName name) :
    other.readText (Path.join base name) = disk.readText (Path.join base name) := by
  have hfind : other.find (Path.join base name) = disk.find (Path.join base name) := by
    rw [find_join_eq hname, find_join_eq hname, h.enter]
    cases hplace : disk.enter base with
    | error fault => rfl
    | ok place =>
      obtain ⟨-, rfl⟩ := enter_eq_ok_iff.mp hplace
      simp only [Except.bind, h.child]
  rw [Disk.readText, Disk.readText, hfind]

/-- A text is written there on both or on neither. -/
theorem writeText (h : disk.AgreesAt other base name) (hname : IsPlainName name) (text : String) :
    other.writeText (Path.join base name) text = (disk.writeText (Path.join base name) text).map fun _ =>
      other.put (disk.placeOf base ++ [name]) (.file (.text text)) := by
  rw [writeText_join_eq hname, writeText_join_eq hname, h.enter]
  cases checkPath (Path.join base name) with
  | error fault => rfl
  | ok _ =>
    cases hplace : disk.enter base with
    | error fault => rfl
    | ok place =>
      obtain ⟨-, rfl⟩ := enter_eq_ok_iff.mp hplace
      simp only [Except.bind, h.child]
      split
      · rfl
      · split <;> rfl

/-- Two disks on which the same is put there agree there. -/
theorem put (h : disk.AgreesAt other base name) (hleads : disk.LeadsToDirectory base)
    (hfile : disk.node? (disk.placeOf base ++ [name]) ≠ some .directory) (node : DiskNode) :
    (disk.put (disk.placeOf base ++ [name]) node).AgreesAt (other.put (disk.placeOf base ++ [name]) node) base
      name := by
  have hplace : disk.enter base = .ok (disk.placeOf base) := enter_eq_ok_iff.mpr ⟨hleads, rfl⟩
  have hkeeps : disk.Keeps (disk.put (disk.placeOf base ++ [name]) node) := keeps_put hfile
  have hkeeps' : other.Keeps (other.put (disk.placeOf base ++ [name]) node) := keeps_put (h.child ▸ hfile)
  refine ⟨h.workingDirectory, ?_, ?_⟩
  · rw [hkeeps'.enter (h.enter.trans hplace), hkeeps.enter hplace, h.enter]
  · rw [hkeeps.placeOf, node?_put, node?_put, if_pos rfl, if_pos rfl]

end AgreesAt

end Disk

end ContractStubs
