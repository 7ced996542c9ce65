import ContractStubs.Console.Help
import ContractStubs.Console.Run
import ContractStubs.Disk.Change

/-!
# The program

Takes in the part of the disk that a command may touch, runs the command on it, and carries its changes out.
-/

namespace ContractStubs

namespace Console

/-! ## The disk -/

/-- What stands at a path, with the names in it if it is a directory. -/
def look (path : String) : IO (Option (DiskNode × List String)) := do
  try
    let place ← IO.FS.realPath path
    if ← place.isDir then
      return some (.directory, (← place.readDir).toList.map (·.fileName))
    else
      return some (.file (.ofBytes (← IO.FS.readBinFile place).toList), [])
  catch _ => return none

/-- The disk with what stands at a place and, if wanted, below it. -/
partial def takeIn (disk : Disk) (place : Place) (below : Bool) : IO Disk := do
  match ← look place.path with
  | none => return disk
  | some (node, names) =>
    let mut disk := disk.put place node
    if below then
      for name in names do
        disk ← takeIn disk (place ++ [name]) (!skippedDirectories.contains name)
    return disk

/-- The disk with everything that a path leads along and, if wanted, what is below its end. -/
def takeInPath (disk : Disk) (path : String) (below : Bool) : IO Disk := do
  let mut disk := disk
  let mut place := disk.origin path
  for piece in Path.pieces path do
    if piece = ".." then place := place.dropLast
    else if piece ≠ "" && piece ≠ "." then
      place := place ++ [piece]
      disk ← takeIn disk place false
  takeIn disk place below

/-- The disk with the directories up to the working directory and the configuration files in them. -/
def takeInSurroundings (disk : Disk) : IO Disk := do
  let mut disk ← takeInPath disk disk.workingPath false
  for directory in Path.ancestors disk.workingPath do
    for name in Config.fileNames do
      disk ← takeInPath disk (Path.join directory name) false
  return disk

/-- The paths that a command names, and the configuration that it names. -/
def pathsOf : Command → List String × Option String
  | .generate paths out _ _ config? => (out :: paths, config?)
  | .inspect paths _ config? => (paths, config?)
  | .watch paths out config? => (out :: paths, config?)
  | .init directory? _ => (directory?.toList.map fun directory => Path.join directory (Config.fileNames.headD ""), none)

/-- The part of the disk that a command may touch. -/
def diskFor (command : Command) : IO Disk := do
  let start := (Path.pieces (← IO.currentDir).toString).filter (· ≠ "")
  let (paths, config?) := pathsOf command
  let mut disk ← takeInSurroundings ⟨[], start⟩
  for path in config?.toList do
    disk ← takeInPath disk path false
  for path in paths do
    disk ← takeInPath disk path true
  match loadConfig disk config? with
  | .ok config =>
    for directory in config.cache.dir?.toList do
      disk ← takeInPath disk directory true
  | .error _ => pure ()
  return disk

/-- Do one thing to the disk. -/
def carryOut : DiskChange → IO Unit
  | .removeFile path => IO.FS.removeFile path
  | .removeDirectory path => IO.FS.removeDir path
  | .makeDirectory path => IO.FS.createDirAll path
  | .write path (.text text) => IO.FS.writeFile path text
  | .write path (.bytes bytes) => IO.FS.writeBinFile path ⟨bytes.toArray⟩

/-! ## Commands -/

/-- Print what a command prints, and tell why it failed if it did. -/
def report (outcome : Outcome) : IO UInt32 := do
  IO.print outcome.output
  match outcome.complaint? with
  | none => return 0
  | some complaint =>
    IO.eprintln ("Error: " ++ ": ".intercalate complaint)
    return 1

/-- Go on with passes as long as the program runs, one whenever a source file has changed. -/
partial def watchOn (command : Command) (paths : List String) (out : String) (generator : Generator)
    (seen : List SourceFile) : IO UInt32 := do
  IO.sleep 200
  let disk ← diskFor command
  match (sourcePaths disk generator.config paths).bind (readSources disk) with
  | .error _ => watchOn command paths out generator seen
  | .ok files =>
    if files == seen then watchOn command paths out generator seen
    else
      let (outcome, generator, after) := watchPass disk generator paths out
      (disk.changesTo after).forM carryOut
      discard (report outcome)
      watchOn command paths out generator files

/-- Run a command. -/
def execute (command : Command) : IO UInt32 := do
  let disk ← diskFor command
  match command with
  | .watch paths out config? =>
    match startWatch disk paths config? with
    | .error complaint => report (.failed complaint)
    | .ok generator =>
      IO.println (watchLine paths out)
      let (outcome, generator, after) := watchPass disk generator paths out
      (disk.changesTo after).forM carryOut
      discard (report outcome)
      let seen := ((sourcePaths disk generator.config paths).bind (readSources disk)).toOption.getD []
      watchOn command paths out generator seen
  | command =>
    let (outcome, after) := run disk command
    (disk.changesTo after).forM carryOut
    report outcome

end Console

end ContractStubs

/-- Run the command that the arguments ask for. -/
def main (arguments : List String) : IO UInt32 :=
  match ContractStubs.Console.Command.ofArguments arguments with
  | .ok command => ContractStubs.Console.execute command
  | .error fault => do
    IO.println fault.message
    return fault.exitCode
