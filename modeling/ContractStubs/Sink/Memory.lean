import ContractStubs.Failure

/-!
# Generated files in memory
-/

namespace ContractStubs

/-- Files in the order in which they were added. -/
structure MemorySink where
  files : List (String × String)
  deriving DecidableEq, Repr, Inhabited

namespace MemorySink

/-- No file. -/
def empty : MemorySink := ⟨[]⟩

/-- The text of a file. -/
def get? (s : MemorySink) (name : String) : Option String := s.files.lookup name

/-- The names of all files. -/
def names (s : MemorySink) : List String := s.files.map (·.1)

/-- The number of files. -/
def size (s : MemorySink) : Nat := s.files.length

/-- No file was added. -/
def isEmpty (s : MemorySink) : Bool := s.files.isEmpty

/-- The files in the order of their names. -/
def toTable (s : MemorySink) : List (String × String) := tableOf s.files

/-- The sink with one more file; a name is taken only once. -/
def add (s : MemorySink) (name text : String) : Except Failure Unit × MemorySink :=
  if (s.get? name).isSome then (.error (.alreadyAdded name), s) else (.ok (), ⟨s.files ++ [(name, text)]⟩)

end MemorySink

end ContractStubs
