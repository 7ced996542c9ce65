import ContractStubs.Disk.Path
import ContractStubs.Text.Table
import ContractStubs.Text.Utf8

/-!
# Disks

A disk is a table of what stands at which place, a place being the names that lead there from the root. There are
directories and files on it and no links, so a place is all there is to a file: two places never share one, and what is
done at a place is done there. Paths are followed from the working directory, step by step, and may fail at each step. An
operation answers the disk that it leaves behind; where it fails the disk is as far as it got.
-/

namespace ContractStubs

/-- Why an operation on a disk fails. -/
inductive DiskFault where
  | missing
  | exists
  | notADirectory
  | isADirectory
  | invalidArgument
  | nameTooLong
  | notEmpty
  /-- A zero character in a path. -/
  | zeroInPath
  /-- The bytes of a file are no text. -/
  | notText
  deriving DecidableEq, Repr, Inhabited

/-- The message of a fault. -/
def DiskFault.message : DiskFault → String
  | .missing => "No such file or directory (os error 2)"
  | .exists => "File exists (os error 17)"
  | .notADirectory => "Not a directory (os error 20)"
  | .isADirectory => "Is a directory (os error 21)"
  | .invalidArgument => "Invalid argument (os error 22)"
  | .nameTooLong => "File name too long (os error 36)"
  | .notEmpty => "Directory not empty (os error 39)"
  | .zeroInPath => "file name contained an unexpected NUL byte"
  | .notText => "stream did not contain valid UTF-8"

/-- What a file holds: a text, or bytes that are none. -/
inductive FileContent where
  | text (content : String)
  | bytes (content : List UInt8)
  deriving DecidableEq, Repr, Inhabited

namespace FileContent

/-- What a file with these bytes holds. -/
def ofBytes (bytes : List UInt8) : FileContent := (textOfBytes? bytes).elim (.bytes bytes) .text

/-- The content as a text, whatever it is. -/
def shown : FileContent → String
  | .text s => s
  | .bytes bs => shownBytes bs

end FileContent

/-- What stands at a place: a directory or a file, and never a link to another place. -/
inductive DiskNode where
  | directory
  | file (content : FileContent)
  deriving DecidableEq, Repr, Inhabited

/-- The names that lead from the root to a place. -/
abbrev Place := List String

/-- Everything on a disk without links, and the directory from which relative paths are followed. -/
structure Disk where
  nodes : List (Place × DiskNode)
  workingDirectory : Place
  deriving DecidableEq, Repr, Inhabited

namespace Disk

/-! ## Looking -/

/-- What stands at a place; the root is a directory. -/
def node? (disk : Disk) (place : Place) : Option DiskNode :=
  if place = [] then some .directory else disk.nodes.lookup place

/-- The longest name that a place can have, in bytes. -/
def nameLimit : Nat := 255

/-- The longest path that can be followed, in bytes. -/
def pathLimit : Nat := 4095

/-- The place to which pieces of a path lead. -/
def follow (disk : Disk) : Place → List String → Except DiskFault Place
  | place, [] => .ok place
  | place, piece :: pieces =>
    if disk.node? place ≠ some .directory then .error .notADirectory
    else if piece = "" || piece = "." then follow disk place pieces
    else if piece = ".." then follow disk place.dropLast pieces
    else if piece.utf8ByteSize > nameLimit then .error .nameTooLong
    else if (disk.node? (place ++ [piece])).isNone then .error .missing
    else follow disk (place ++ [piece]) pieces

/-- The absolute path to the working directory. -/
def workingPath (disk : Disk) : String := "/" ++ "/".intercalate disk.workingDirectory

/-- Where a path starts. -/
def origin (disk : Disk) (path : String) : Place := if Path.isAbsolute path then [] else disk.workingDirectory

/-- The path is one that can be followed at all. -/
def checkPath (path : String) : Except DiskFault Unit :=
  if path.toList.contains '\x00' then .error .zeroInPath
  else if path = "" then .error .missing
  else if path.utf8ByteSize > pathLimit then .error .nameTooLong
  else .ok ()

/-- What stands at the end of a path, and where that is. -/
def find (disk : Disk) (path : String) : Except DiskFault (Place × DiskNode) := do
  checkPath path
  let place ← disk.follow (disk.origin path) (Path.pieces path)
  match disk.node? place with
  | some node => .ok (place, node)
  | none => .error .missing

/-- Something stands there. -/
def exists? (disk : Disk) (path : String) : Bool := (disk.find path).toOption.isSome

/-- A directory stands there. -/
def isDirectory (disk : Disk) (path : String) : Bool :=
  match disk.find path with
  | .ok (_, .directory) => true
  | _ => false

/-- A file stands there. -/
def isFile (disk : Disk) (path : String) : Bool :=
  match disk.find path with
  | .ok (_, .file _) => true
  | _ => false

/-- The text of a file. -/
def readText (disk : Disk) (path : String) : Except DiskFault String := do
  match ← disk.find path with
  | (_, .directory) => .error .isADirectory
  | (_, .file (.bytes _)) => .error .notText
  | (_, .file (.text s)) => .ok s

/-- The names in a directory, in alphabetical order. -/
def names (disk : Disk) (place : Place) : List String :=
  (disk.nodes.filterMap fun (p, _) => if p.dropLast = place then p.getLast? else none).mergeSort fun a b => a ≤ b

/-- The names in a directory. -/
def readDirectory (disk : Disk) (path : String) : Except DiskFault (List String) := do
  match ← disk.find path with
  | (place, .directory) => .ok (disk.names place)
  | (_, .file _) => .error .notADirectory

/-- The absolute path without dots to what stands at the end of a path. -/
def realPath (disk : Disk) (path : String) : Except DiskFault String :=
  (disk.find path).map fun (place, _) => "/" ++ "/".intercalate place

/-! ## Changing -/

/-- The entries with one of them replaced, or added behind the others. -/
def putNode (place : Place) (node : DiskNode) : List (Place × DiskNode) → List (Place × DiskNode)
  | [] => [(place, node)]
  | (p, n) :: nodes => if p = place then (p, node) :: nodes else (p, n) :: putNode place node nodes

/-- The disk with something at a place. -/
def put (disk : Disk) (place : Place) (node : DiskNode) : Disk := { disk with nodes := putNode place node disk.nodes }

/-- The directory and the piece that a path ends with; a slash at the end is told apart. -/
structure Ending where
  directory : Place
  piece : String
  hasSlash : Bool
  deriving DecidableEq, Repr, Inhabited

/-- The end of a path, once everything before it was followed. -/
def ending (disk : Disk) (path : String) : Except DiskFault Ending := do
  checkPath path
  let pieces := Path.pieces path
  match (pieces.reverse.dropWhile (· = "")) with
  | [] => .ok ⟨[], ".", true⟩
  | piece :: before => do
    let directory ← disk.follow (disk.origin path) before.reverse
    if disk.node? directory ≠ some .directory then .error .notADirectory
    else .ok ⟨directory, piece, pieces.getLast? == some ""⟩

/-- A piece that leads to a directory that is there already. -/
def isDots (piece : String) : Bool := piece == "." || piece == ".."

/-- A new directory. -/
def createDirectory (disk : Disk) (path : String) : Except DiskFault Disk := do
  let e ← disk.ending path
  if isDots e.piece then .error .exists
  else if e.piece.utf8ByteSize > nameLimit then .error .nameTooLong
  else if (disk.node? (e.directory ++ [e.piece])).isSome then .error .exists
  else .ok (disk.put (e.directory ++ [e.piece]) .directory)

/-- A file with a text, in place of the file that may be there. -/
def writeText (disk : Disk) (path text : String) : Except DiskFault Disk := do
  let e ← disk.ending path
  if isDots e.piece || e.hasSlash then .error .isADirectory
  else if e.piece.utf8ByteSize > nameLimit then .error .nameTooLong
  else if disk.node? (e.directory ++ [e.piece]) = some .directory then .error .isADirectory
  else .ok (disk.put (e.directory ++ [e.piece]) (.file (.text text)))

/-- A directory at the first of some paths, each of which is the parent of the one before; the parents are made where
they are missing. -/
def createAll : List String → Disk → Except DiskFault Unit × Disk
  | [], disk => (.error .missing, disk)
  | path :: parents, disk =>
    if path = "" then (.ok (), disk)
    else match disk.createDirectory path with
      | .ok disk => (.ok (), disk)
      | .error .missing =>
        match createAll parents disk with
        | (.error fault, disk) => (.error fault, disk)
        | (.ok (), disk) =>
          match disk.createDirectory path with
          | .ok disk => (.ok (), disk)
          | .error fault => if disk.isDirectory path then (.ok (), disk) else (.error fault, disk)
      | .error fault => if disk.isDirectory path then (.ok (), disk) else (.error fault, disk)

/-- A directory with all its parents. -/
def createDirectories (disk : Disk) (path : String) : Except DiskFault Unit × Disk :=
  createAll (Path.ancestors path) disk

/-- The disk without anything below a place. -/
def clearBelow (disk : Disk) (place : Place) : Disk :=
  { disk with nodes := disk.nodes.filter fun (p, _) => !(place.isPrefixOf p && p ≠ place) }

/-- The disk without a place and anything below it. -/
def removeBelow (disk : Disk) (place : Place) : Disk :=
  { disk with nodes := disk.nodes.filter fun (p, _) => !place.isPrefixOf p }

/-- A directory removed with everything in it. -/
def removeDirectory (disk : Disk) (path : String) : Except DiskFault Unit × Disk :=
  match disk.find path with
  | .error fault => (.error fault, disk)
  | .ok (_, .file _) => (.error .notADirectory, disk)
  | .ok (place, .directory) =>
    match (Path.pieces path).reverse.dropWhile (· = "") with
    | "." :: _ => (.error .invalidArgument, disk.clearBelow place)
    | ".." :: _ => (.error .notEmpty, disk.clearBelow place)
    | _ => (.ok (), disk.removeBelow place)

end Disk

end ContractStubs
