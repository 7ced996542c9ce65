import ContractStubs.Failure

/-!
# Generated files in a directory

Each file is a direct child of one directory. A file that holds its text already is left alone. What a sink asks of the
file system is little (`FileSystem`), and a disk is a file system that can do this.
-/

namespace ContractStubs

/-- What a sink asks of a file system with states of some type. -/
structure FileSystem (σ : Type) where
  /-- A directory made with all its parents, or as far as that went. -/
  createDirectories : σ → (path : String) → Except DiskFault Unit × σ
  /-- The text of a file. -/
  readText : σ → (path : String) → Except DiskFault String
  /-- A file with a text, in place of the file that may be there. -/
  writeText : σ → (path text : String) → Except DiskFault σ

/-- Disks are the states of a file system. -/
def Disk.fileSystem : FileSystem Disk := ⟨Disk.createDirectories, Disk.readText, Disk.writeText⟩

/-- A directory that files go to, and what became of them. -/
structure DirectorySink where
  root : String
  /-- The paths of the files that got a new text. -/
  written : List String
  /-- The paths of the files that were left alone. -/
  unchanged : List String
  deriving DecidableEq, Repr, Inhabited

namespace DirectorySink

variable {σ : Type}

/-- The sink of a directory of a file system; the directory is made where it is missing. -/
def createOn (fs : FileSystem σ) (state : σ) (root : String) : Except Failure DirectorySink × σ :=
  match fs.createDirectories state root with
  | (.error fault, state) => (.error (.disk fault), state)
  | (.ok (), state) => (.ok ⟨root, [], []⟩, state)

/-- The sink of a directory on a disk. -/
def create (disk : Disk) (root : String) : Except Failure DirectorySink × Disk := createOn Disk.fileSystem disk root

/-- A file of a directory may have this name. -/
def isValidName (name : String) : Bool :=
  name != "" && !name.toList.contains '/' && !name.toList.contains '\\' && !startsWith "." name

/-- The sink and the file system with one more file. -/
def addOn (fs : FileSystem σ) (s : DirectorySink) (state : σ) (name text : String) :
    Except Failure Unit × DirectorySink × σ :=
  if !isValidName name then (.error (.badFileName name), s, state)
  else
    let path := Path.join s.root name
    match fs.readText state path with
    | .ok content =>
      if content = text then (.ok (), { s with unchanged := s.unchanged ++ [path] }, state)
      else finish fs s state path text
    | .error _ => finish fs s state path text
where
  /-- The file gets its text. -/
  finish (fs : FileSystem σ) (s : DirectorySink) (state : σ) (path text : String) :
      Except Failure Unit × DirectorySink × σ :=
    match fs.writeText state path text with
    | .error fault => (.error (.disk fault), s, state)
    | .ok state => (.ok (), { s with written := s.written ++ [path] }, state)

/-- The sink and the disk with one more file. -/
def add (s : DirectorySink) (disk : Disk) (name text : String) : Except Failure Unit × DirectorySink × Disk :=
  addOn Disk.fileSystem s disk name text

end DirectorySink

end ContractStubs
