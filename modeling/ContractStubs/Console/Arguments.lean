import ContractStubs.Text.Cut

/-!
# Arguments of a command

Options in long and short form, and paths. An option that takes a value gets it from the text behind it or from the next
argument; what was begun is settled when something else begins, so of two faults the one that is settled first counts.
-/

namespace ContractStubs

namespace Console

/-- Why arguments do not say what to do. -/
inductive UsageFault where
  /-- There is no argument. -/
  | nothingAsked
  /-- Help is asked for. -/
  | help
  /-- The version is asked for. -/
  | version
  | unknownCommand
  | unknownArgument
  /-- There is no path. -/
  | missingPath
  /-- An option has no value, or a value is empty. -/
  | missingValue
  /-- An option without a value has one. -/
  | unexpectedValue
  /-- An option stands twice. -/
  | repeated
  deriving DecidableEq, Repr, Inhabited

/-- An option of a command. -/
structure OptionForm where
  name : String
  letter? : Option Char
  takesValue : Bool
  deriving DecidableEq, Repr, Inhabited

/-- What a command takes. -/
structure CommandForm where
  options : List OptionForm
  takesPaths : Bool
  deriving DecidableEq, Repr, Inhabited

/-- The options that every command has. -/
def commonOptions : List OptionForm := [⟨"help", some 'h', false⟩, ⟨"version", some 'V', false⟩]

namespace CommandForm

/-- The option with a name. -/
def named? (form : CommandForm) (name : String) : Option OptionForm :=
  (form.options ++ commonOptions).find? fun o => o.name == name

/-- The option with a letter. -/
def lettered? (form : CommandForm) (letter : Char) : Option OptionForm :=
  (form.options ++ commonOptions).find? fun o => o.letter? == some letter

end CommandForm

/-- What was given to a command. -/
structure Given where
  flags : List String
  values : List (String × String)
  paths : List String
  deriving DecidableEq, Repr, Inhabited

namespace Given

/-- Nothing. -/
def nothing : Given := ⟨[], [], []⟩

/-- The option stands among the arguments. -/
def has (g : Given) (name : String) : Bool := g.flags.contains name

/-- The value of an option. -/
def value? (g : Given) (name : String) : Option String := g.values.lookup name

/-- An option without a value. Help and version are answered at once. -/
def addFlag (g : Given) (o : OptionForm) : Except UsageFault Given :=
  if o.name = "help" then .error .help
  else if o.name = "version" then .error .version
  else if g.has o.name then .error .repeated
  else .ok { g with flags := o.name :: g.flags }

/-- An option with a value. -/
def addValue (g : Given) (o : OptionForm) (value : String) : Except UsageFault Given :=
  if (g.value? o.name).isSome then .error .repeated
  else if value = "" then .error .missingValue
  else .ok { g with values := (o.name, value) :: g.values }

/-- Further paths. -/
def addPaths (g : Given) (paths : List String) : Except UsageFault Given :=
  if paths.contains "" then .error .missingValue else .ok { g with paths := g.paths ++ paths }

end Given

/-- What was begun and is not settled. -/
inductive Begun where
  | nothing
  /-- An option, and its value if it was read. -/
  | option (form : OptionForm) (value? : Option String)
  | paths (texts : List String)
  deriving DecidableEq, Repr, Inhabited

/-- The arguments read so far. -/
structure ArgumentState where
  given : Given
  begun : Begun
  deriving DecidableEq, Repr, Inhabited

namespace ArgumentState

/-- Nothing read. -/
def start : ArgumentState := ⟨.nothing, .nothing⟩

/-- What was given, with what was begun. -/
def settle (s : ArgumentState) : Except UsageFault Given :=
  match s.begun with
  | .nothing => .ok s.given
  | .option _ none => .error .missingValue
  | .option o (some value) => s.given.addValue o value
  | .paths texts => s.given.addPaths texts

/-- The state after an option. -/
def afterOption (s : ArgumentState) (o : OptionForm) (attached? : Option String) : Except UsageFault ArgumentState := do
  if o.takesValue then
    let given ← s.settle
    match attached? with
    | some value => return ⟨← given.addValue o value, .nothing⟩
    | none => return ⟨given, .option o none⟩
  else if attached?.isSome then .error .unexpectedValue
  else return ⟨← (← s.settle).addFlag o, .nothing⟩

/-- The state after a name with two dashes. -/
def afterName (form : CommandForm) (s : ArgumentState) (text : List Char) : Except UsageFault ArgumentState :=
  let name := String.ofList (text.takeWhile (· ≠ '='))
  let attached? := match text.dropWhile (· ≠ '=') with
    | [] => none
    | _ :: value => some (String.ofList value)
  match form.named? name with
  | some o => s.afterOption o attached?
  | none => .error .unknownArgument

/-- The value behind the letter of an option, if there is one; an equals sign may stand between. -/
def attachedValue? : List Char → Option String
  | [] => none
  | '=' :: value => some (String.ofList value)
  | value => some (String.ofList value)

/-- The state after letters behind one dash. -/
def afterLetters (form : CommandForm) : ArgumentState → List Char → Except UsageFault ArgumentState
  | s, [] => .ok s
  | s, letter :: letters =>
    match form.lettered? letter with
    | none => .error .unknownArgument
    | some o =>
      if o.takesValue then s.afterOption o (attachedValue? letters)
      else do afterLetters form (← s.afterOption o none) letters

/-- The state after a path. -/
def afterPath (form : CommandForm) (s : ArgumentState) (text : String) : Except UsageFault ArgumentState :=
  if !form.takesPaths then .error .unknownArgument
  else match s.begun with
    | .paths texts => .ok { s with begun := .paths (texts ++ [text]) }
    | _ => s.settle.map fun given => ⟨given, .paths [text]⟩

/-- The state after a word that is no option: the value that an option waits for, or a path. -/
def afterWord (form : CommandForm) (s : ArgumentState) (text : String) : Except UsageFault ArgumentState :=
  match s.begun with
  | .option o none => .ok { s with begun := .option o (some text) }
  | _ => s.afterPath form text

/-- The state after an argument before any double dash. -/
def afterArgument (form : CommandForm) (s : ArgumentState) (text : String) : Except UsageFault ArgumentState :=
  match text.toList with
  | '-' :: '-' :: name => s.afterName form name
  | '-' :: letter :: letters => s.afterLetters form (letter :: letters)
  | _ => s.afterWord form text

end ArgumentState

/-- The state after all arguments; behind a double dash there are only paths. -/
def readArguments (form : CommandForm) :
    (onlyPaths : Bool) → ArgumentState → List String → Except UsageFault ArgumentState
  | _, s, [] => .ok s
  | true, s, text :: texts => do readArguments form true (← s.afterPath form text) texts
  | false, s, text :: texts =>
    if text = "--" then readArguments form true s texts
    else do readArguments form false (← s.afterArgument form text) texts

/-- What the arguments of a command give it. -/
def CommandForm.read (form : CommandForm) (texts : List String) : Except UsageFault Given := do
  let given ← (← readArguments form false .start texts).settle
  if form.takesPaths && given.paths.isEmpty then .error .missingPath else .ok given

end Console

end ContractStubs
