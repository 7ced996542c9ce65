import ContractStubs.Text.Cut

/-!
# Paths

A path is a text; a slash separates its parts. Repeated slashes and inner dots say nothing, so two texts with the same
parts are one path, but the text is kept as it was given.
-/

namespace ContractStubs

/-- A part of a path. -/
inductive PathPart where
  /-- The slash that an absolute path starts with. -/
  | root
  /-- The dot that a relative path may start with. -/
  | here
  /-- Two dots. -/
  | up
  | name (text : String)
  deriving DecidableEq, Repr, Inhabited

namespace PathPart

/-- The place of a part in the order of paths. -/
def rank : PathPart → Nat
  | .root => 0
  | .here => 1
  | .up => 2
  | .name _ => 3

/-- Names come after everything else and stand in alphabetical order. -/
def before (a b : PathPart) : Bool :=
  match a, b with
  | .name s, .name t => s < t
  | a, b => a.rank < b.rank

/-- The order of paths: part by part, a path before those that go on from it. -/
def allBefore : List PathPart → List PathPart → Bool
  | [], [] => false
  | [], _ :: _ => true
  | _ :: _, [] => false
  | a :: as, b :: bs => if a = b then allBefore as bs else a.before b

end PathPart

namespace Path

/-- The path starts at the root. -/
def isAbsolute (path : String) : Bool := startsWith "/" path

/-- The texts between slashes. -/
def pieces (path : String) : List String := textPieces (· = '/') path

/-- The part that the text between two slashes is, if it says something. -/
def partOf? (piece : String) (index : Nat) : Option PathPart :=
  if piece = "" then none
  else if piece = "." then (if index = 0 then some .here else none)
  else if piece = ".." then some .up
  else some (.name piece)

/-- The parts of a path. -/
def parts (path : String) : List PathPart :=
  (if isAbsolute path then [.root] else []) ++ (pieces path).zipIdx.filterMap fun (piece, index) => partOf? piece index

/-- A path seen from another one. -/
def join (base path : String) : String :=
  if isAbsolute path || base = "" then path
  else if endsWith "/" base then base ++ path
  else base ++ "/" ++ path

/-- For each part but the root, how many texts between slashes lead up to its end. -/
def partEnds (path : String) : List Nat :=
  (pieces path).zipIdx.filterMap fun (piece, index) => (partOf? piece index).map fun _ => index + 1

/-- The texts that a path starts with and that end with a part, the longest first; the path itself is not among them. -/
def properBeginnings (path : String) : List String :=
  ((partEnds path).dropLast.map fun count => "/".intercalate ((pieces path).take count)).reverse

/-- A path, its parent, the parent of that and so on. -/
def ancestors (path : String) : List String :=
  path :: properBeginnings path
    ++ (if (partEnds path).isEmpty then [] else if isAbsolute path then ["/"] else [""])

/-- The last part, if it is a name. -/
def fileName? (path : String) : Option String :=
  match (parts path).getLast? with
  | some (.name s) => some s
  | _ => none

/-- What follows the last dot in the name, the first character apart. -/
def extension? (path : String) : Option String :=
  (fileName? path).bind fun name =>
    match (textPieces (· = '.') name).reverse with
    | last :: piece :: pieces => if pieces.isEmpty && piece = "" then none else some last
    | _ => none

end Path

end ContractStubs
