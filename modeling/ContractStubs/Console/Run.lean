import ContractStubs.Console.Command
import ContractStubs.Console.Listing
import ContractStubs.Console.Project

/-!
# Running commands

What a command prints, why it fails if it does, and the disk that it leaves behind.
-/

namespace ContractStubs

namespace Console

/-- What a command prints, and why it fails if it does. -/
structure Outcome where
  output : String
  complaint? : Option Complaint
  deriving DecidableEq, Repr, Inhabited

namespace Outcome

/-- A command that prints a text. -/
def printed (text : String) : Outcome := ⟨text, none⟩

/-- A command that fails before it prints anything. -/
def failed (complaint : Complaint) : Outcome := ⟨"", some complaint⟩

end Outcome

/-- A document as it is printed. -/
def documentText (j : Json) : String := j.toPretty ++ "\n"

/-! ## Generating -/

/-- The texts that generating would write. The cache may grow all the same. -/
def dryRun (disk : Disk) (g : Generator) (provider : Provider) (json : Bool) : Outcome × Disk :=
  let (report, _, disk) := g.generate provider .never Generator.inOrder disk
  (.printed (if json then documentText report.toJson else filesText report.files), disk)

/-- A pass whose files go to a directory: the report, and the sink with the disk behind it. -/
def passInto (disk : Disk) (g : Generator) (provider : Provider) (sink : DirectorySink) :
    PassReport × Generator × DirectorySink × Disk :=
  g.generateInto provider .never Generator.inOrder disk directoryStep fun disk => (sink, disk)

/-- The complaint about files that a sink refused. -/
def refusal? (r : PassReport) : Option Complaint :=
  match r.emission.refused.length with
  | 0 => none
  | n + 1 => some [toString (n + 1) ++ " units could not be written"]

/-- The directory for generated files. -/
def openSink (disk : Disk) (out : String) : Except Complaint DirectorySink × Disk :=
  let (sink, disk) := DirectorySink.create disk out
  (whileTrying ("Failed to create " ++ out) sink, disk)

/-- The files of a pass, written to a directory. -/
def writeStubs (disk : Disk) (g : Generator) (provider : Provider) (out : String) (json : Bool) : Outcome × Disk :=
  match openSink disk out with
  | (.error complaint, disk) => (.failed complaint, disk)
  | (.ok sink, disk) =>
    let (report, _, sink, disk) := passInto disk g provider sink
    (⟨if json then documentText report.toJson else textOfLines (reportLines report sink), refusal? report⟩, disk)

/-- Generate the stubs for all types that carry the marker. -/
def runGenerate (disk : Disk) (paths : List String) (out : String) (dry json : Bool) (config? : Option String) :
    Outcome × Disk :=
  match openProject disk paths config? with
  | .error complaint => (.failed complaint, disk)
  | .ok (g, provider) => if dry then dryRun disk g provider json else writeStubs disk g provider out json

/-! ## Inspecting -/

/-- Tell what generating would do. -/
def runInspect (disk : Disk) (paths : List String) (json : Bool) (config? : Option String) : Outcome :=
  match openProject disk paths config? with
  | .error complaint => .failed complaint
  | .ok (g, provider) =>
    let inspections := inspect provider g.config
    .printed (if json then documentText (.array (inspections.map TypeInspection.toJson))
      else textOfLines (inspectionLines inspections))

/-! ## Watching -/

/-- The first path that cannot be watched, and why. -/
def unwatchable? (disk : Disk) (paths : List String) : Option Complaint :=
  paths.findSome? fun path =>
    match disk.find path with
    | .ok _ => none
    | .error fault => some ["Failed to watch " ++ path, fault.message]

/-- The generator that watching starts with. -/
def startWatch (disk : Disk) (paths : List String) (config? : Option String) : Except Complaint Generator := do
  let config ← loadConfig disk config?
  let generator ← openGenerator disk config
  match unwatchable? disk paths with
  | some complaint => .error complaint
  | none => return generator

/-- What is printed when watching starts. -/
def watchLine (paths : List String) (out : String) : String :=
  "👀 Watching " ++ toString paths.length ++ " path(s), writing to " ++ out

/-- One pass of a generator that watches; a file that is missing leaves everything as it is. -/
def watchPass (disk : Disk) (g : Generator) (paths : List String) (out : String) : Outcome × Generator × Disk :=
  match (sourcePaths disk g.config paths).bind (readSources disk) with
  | .error complaint => (.failed complaint, g, disk)
  | .ok files =>
    match openSink disk out with
    | (.error complaint, disk) => (.failed complaint, g, disk)
    | (.ok sink, disk) =>
      let (report, g, sink, disk) := passInto disk g (providerOf g.config files) sink
      (.printed (textOfLines (reportLines report sink)), g, disk)

/-! ## Starting a project -/

/-- Write the standard configuration, unless there is a file that must not be replaced. -/
def runInit (disk : Disk) (directory? : Option String) (force : Bool) : Outcome × Disk :=
  match disk.realPath (directory?.getD disk.workingPath) with
  | .error fault => (.failed ["Failed to canonicalize project root", fault.message], disk)
  | .ok root =>
    let path := Path.join root (Config.fileNames.headD "")
    if disk.exists? path && !force then (.printed (textOfLines (existsLines path)), disk)
    else match whileTrying ("Failed to write config to " ++ path) (Config.standard.save disk path) with
      | .error complaint => (.failed complaint, disk)
      | .ok disk => (.printed (textOfLines (createdLines path)), disk)

/-! ## All commands -/

/-- What becomes of a command. Watching only gets to its start. -/
def run (disk : Disk) : Command → Outcome × Disk
  | .generate paths out dry json config? => runGenerate disk paths out dry json config?
  | .inspect paths json config? => (runInspect disk paths json config?, disk)
  | .watch paths out config? =>
    match startWatch disk paths config? with
    | .error complaint => (.failed complaint, disk)
    | .ok _ => (.printed (watchLine paths out ++ "\n"), disk)
  | .init directory? force => runInit disk directory? force

end Console

end ContractStubs
