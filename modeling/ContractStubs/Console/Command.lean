import ContractStubs.Console.Arguments

/-!
# Commands

What can be asked for, and how it is written. Every command but one has a short name besides.
-/

namespace ContractStubs

namespace Console

/-- Something to do. -/
inductive Command where
  /-- Generate the stubs for all types that carry the marker. -/
  | generate (paths : List String) (out : String) (dryRun json : Bool) (config? : Option String)
  /-- Tell what generating would do. -/
  | inspect (paths : List String) (json : Bool) (config? : Option String)
  /-- Generate again whenever a source file changes. -/
  | watch (paths : List String) (out : String) (config? : Option String)
  /-- Write the standard configuration. -/
  | init (directory? : Option String) (force : Bool)
  deriving DecidableEq, Repr, Inhabited

/-- The command that a name stands for. -/
inductive CommandName where
  | generate
  | inspect
  | watch
  | init
  deriving DecidableEq, Repr, Inhabited

namespace CommandName

/-- The names of the commands. -/
def table : List (String × CommandName) :=
  [("generate", .generate), ("g", .generate), ("inspect", .inspect), ("i", .inspect), ("watch", .watch), ("w", .watch),
   ("init", .init)]

/-- The directory that generated files go to. -/
def outOption : OptionForm := ⟨"out", some 'o', true⟩

/-- The configuration file. -/
def configOption : OptionForm := ⟨"config", some 'c', true⟩

/-- The answer is a document. -/
def jsonOption : OptionForm := ⟨"json", none, false⟩

/-- What a command takes. -/
def form : CommandName → CommandForm
  | .generate => ⟨[outOption, ⟨"dry-run", some 'd', false⟩, jsonOption, configOption], true⟩
  | .inspect => ⟨[jsonOption, configOption], true⟩
  | .watch => ⟨[outOption, configOption], true⟩
  | .init => ⟨[⟨"cwd", none, true⟩, ⟨"force", some 'f', false⟩], false⟩

end CommandName

namespace Command

/-- Where generated files go unless it is said. -/
def standardOut : String := "Generated"

/-- The command of a name with what it was given. -/
def ofGiven (given : Given) : CommandName → Command
  | .generate =>
    .generate given.paths ((given.value? "out").getD standardOut) (given.has "dry-run") (given.has "json")
      (given.value? "config")
  | .inspect => .inspect given.paths (given.has "json") (given.value? "config")
  | .watch => .watch given.paths ((given.value? "out").getD standardOut) (given.value? "config")
  | .init => .init (given.value? "cwd") (given.has "force")

/-- The word names a command, or the help about one. -/
def isName (word : String) : Bool := word = "help" || (CommandName.table.lookup word).isSome

/-- The fault that asking for help about some topics is answered with. -/
def helpOn : List String → UsageFault
  | [] => .help
  | [topic] => if isName topic then .help else .unknownCommand
  | _ => .unknownCommand

/-- What is wrong with a first argument that names no command. -/
def firstFault (word : String) : UsageFault :=
  match ArgumentState.start.afterArgument ⟨[], true⟩ word with
  | .error fault => fault
  | .ok _ => .unknownCommand

/-- The command that the arguments of the program ask for. -/
def ofArguments : List String → Except UsageFault Command
  | [] | ["--"] => .error .nothingAsked
  | "--" :: word :: _ => .error (if isName word then .unknownArgument else .unknownCommand)
  | "help" :: topics => .error (helpOn topics)
  | word :: texts =>
    match CommandName.table.lookup word with
    | some name => (name.form.read texts).map fun given => ofGiven given name
    | none => .error (firstFault word)

end Command

end Console

end ContractStubs
