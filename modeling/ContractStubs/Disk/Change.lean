import ContractStubs.Disk.Basic

/-!
# Changes of a disk

What has to be done so that one disk becomes another: first everything that is gone is removed, then directories and
files are made, a directory before what is in it.
-/

namespace ContractStubs

/-- Something to be done to a disk. -/
inductive DiskChange where
  | removeFile (path : String)
  | removeDirectory (path : String)
  | makeDirectory (path : String)
  | write (path : String) (content : FileContent)
  deriving DecidableEq, Repr, Inhabited

/-- The absolute path to a place. -/
def Place.path (place : Place) : String := "/" ++ "/".intercalate place

/-- The removal of something. -/
def DiskNode.removal (place : Place) : DiskNode → DiskChange
  | .directory => .removeDirectory place.path
  | .file _ => .removeFile place.path

/-- The making of something. -/
def DiskNode.making (place : Place) : DiskNode → DiskChange
  | .directory => .makeDirectory place.path
  | .file content => .write place.path content

/-- What has to be done to a disk so that it becomes another one. -/
def Disk.changesTo (before after : Disk) : List DiskChange :=
  let gone := before.nodes.filter fun (place, _) => (after.node? place).isNone
  let new := after.nodes.filter fun (place, node) => before.node? place ≠ some node
  (gone.mergeSort fun a b => b.1.length ≤ a.1.length).map (fun (place, node) => node.removal place)
    ++ (new.mergeSort fun a b => a.1.length ≤ b.1.length).map fun (place, node) => node.making place

end ContractStubs
