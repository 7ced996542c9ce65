import ContractStubs.Disk.Basic

/-!
# Finding source files

The hand-written source files among some paths. A path to a file is taken as it is; a directory stands for all source
files in it and below, but for those in directories that never hold sources.
-/

namespace ContractStubs

/-- The file is named like a source file and not like a generated one. -/
def isSourceFile (path outputExtension : String) : Bool :=
  let name := (Path.fileName? path).getD ""
  endsWith ".cs" name && !endsWith outputExtension name

/-- The directories that hold the results of builds and the like. -/
def skippedDirectories : List String := ["bin", "obj", ".git", ".vs", "node_modules"]

/-- The names that lead from one place to another below it. -/
def Place.below? (top place : Place) : Option Place :=
  if top.isPrefixOf place then some (place.drop top.length) else none

/-- The path to a file below a directory, given by the names that lead there, if the file is a source file. A directory
whose path is too long cannot be opened, and what is in it is passed over. -/
def sourceBelow? (directory outputExtension : String) (names : Place) : Option String :=
  let path := names.foldl Path.join directory
  let parent := names.dropLast.foldl Path.join directory
  if names.dropLast.any skippedDirectories.contains || parent.utf8ByteSize > Disk.pathLimit
    || !isSourceFile path outputExtension then none
  else some path

/-- The source files below a directory. -/
def sourcesBelow (disk : Disk) (directory outputExtension : String) (place : Place) : List String :=
  disk.nodes.filterMap fun (p, node) =>
    match node with
    | .directory => none
    | .file _ => (place.below? p).bind (sourceBelow? directory outputExtension)

/-- The source files that a path stands for, if something is there. -/
def sourcesAt? (disk : Disk) (outputExtension path : String) : Option (List String) :=
  match disk.find path with
  | .ok (_, .file _) => some [path]
  | .ok (place, .directory) => some (sourcesBelow disk path outputExtension place)
  | .error _ => none

/-- Paths in order, each path once. -/
def sortPaths (paths : List String) : List String :=
  dropSame (paths.mergeSort fun a b => !PathPart.allBefore (Path.parts b) (Path.parts a))
where
  /-- The paths without those that are the same as the one before. -/
  dropSame : List String → List String
    | [] => []
    | path :: paths =>
      match dropSame paths with
      | [] => [path]
      | next :: rest => if Path.parts path = Path.parts next then path :: rest else path :: next :: rest

/-- The source files that some paths stand for, in order, or the first path where nothing is. -/
def findSources (disk : Disk) (outputExtension : String) : List String → Except String (List String)
  | paths => (gather paths).map sortPaths
where
  /-- The source files path by path. -/
  gather : List String → Except String (List String)
    | [] => .ok []
    | path :: paths =>
      match sourcesAt? disk outputExtension path with
      | none => .error path
      | some files => (gather paths).map (files ++ ·)

end ContractStubs
