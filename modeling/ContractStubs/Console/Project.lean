import ContractStubs.Config.File
import ContractStubs.Pass.Generator
import ContractStubs.Program.Members
import ContractStubs.Source.File
import ContractStubs.Source.Find

/-!
# Opening a project

What every command needs first: the configuration, the source files and a generator.
-/

namespace ContractStubs

/-- The messages of a failure and of what caused it, the cause last. -/
def Failure.chain (f : Failure) : List String :=
  match f with
  | .disk cause => [f.message, cause.message]
  | .document cause => [f.message, cause.message]
  | _ => [f.message]

namespace Console

/-- Why a command fails: what was tried, then why it failed, and why that. -/
abbrev Complaint := List String

/-- An outcome whose failure gets told what was tried. -/
def whileTrying {α : Type} (what : String) (outcome : Except Failure α) : Except Complaint α :=
  outcome.mapError fun f => what :: f.chain

/-- The configuration in a file that is named, or else the one that holds for the working directory. -/
def loadConfig (disk : Disk) : (config? : Option String) → Except Complaint Config
  | some path => whileTrying ("Failed to load config " ++ path) (Config.load disk path)
  | none => whileTrying "Failed to load configuration" (Config.loadOrStandard disk disk.workingPath)

/-- The text of a source file. -/
def readSource (disk : Disk) (path : String) : Except Complaint SourceFile :=
  (whileTrying ("Failed to read " ++ path) (Failure.ofDisk (disk.readText path))).map fun text => ⟨some path, text⟩

/-- The paths of the source files that some paths stand for. -/
def sourcePaths (disk : Disk) (config : Config) (paths : List String) : Except Complaint (List String) :=
  (findSources disk config.outputExtension paths).mapError fun path => ["No such file or directory: " ++ path]

/-- The source files at some paths. -/
def readSources (disk : Disk) (paths : List String) : Except Complaint (List SourceFile) := paths.mapM (readSource disk)

/-- A generator for a configuration. -/
def openGenerator (disk : Disk) (config : Config) : Except Complaint Generator :=
  whileTrying "Invalid configuration" (Generator.create config disk)

/-- What answers the questions about a program that some source files hold. -/
def providerOf (config : Config) (files : List SourceFile) : Provider :=
  (Program.ofModel (.ofFiles files) config.knownTypes).provider Program.searchDepth

/-- A generator and the program for it, which has a source file at least. -/
def openProject (disk : Disk) (paths : List String) (config? : Option String) :
    Except Complaint (Generator × Provider) := do
  let config ← loadConfig disk config?
  let found ← sourcePaths disk config paths
  if found.isEmpty then .error ["No C# source files found"]
  let files ← readSources disk found
  let generator ← openGenerator disk config
  return (generator, providerOf config files)

end Console

end ContractStubs
