/-!
# Pages

A text that is written line by line, with blocks in braces. A line is indented by four spaces for each open block.
-/

namespace ContractStubs

/-- The lines written so far and the number of open blocks. -/
structure Page where
  lines : List String
  depth : Nat
  deriving DecidableEq, Repr, Inhabited

namespace Page

/-- Nothing written. -/
def empty : Page := ⟨[], 0⟩

/-- A line behind the indentation; an empty line gets none. -/
def indented (depth : Nat) (text : String) : String :=
  if text = "" then "" else String.ofList (List.replicate (4 * depth) ' ') ++ text

/-- One more line. -/
def write (p : Page) (text : String) : Page := ⟨p.lines ++ [indented p.depth text], p.depth⟩

/-- Further lines. -/
def writeAll (p : Page) (texts : List String) : Page := texts.foldl write p

/-- An empty line. -/
def writeBlank (p : Page) : Page := p.write ""

/-- A header and an opening brace; what follows is one level deeper. -/
def openBlock (p : Page) (header : String) : Page :=
  let q := (p.write header).write "\x7b"
  ⟨q.lines, q.depth + 1⟩

/-- A closing brace, one level back if there is one. -/
def closeBlock (p : Page) : Page := write ⟨p.lines, p.depth - 1⟩ "\x7d"

/-- So many closing braces. -/
def closeBlocks : (count : Nat) → Page → Page
  | 0, p => p
  | count + 1, p => closeBlocks count p.closeBlock

/-- A closing brace for each open block. -/
def closeAll (p : Page) : Page := closeBlocks p.depth p

/-- Lines in front of all others, not indented. -/
def prepend (p : Page) (texts : List String) : Page := ⟨texts ++ p.lines, p.depth⟩

/-- The text of the page; it ends with a line break. -/
def toText (p : Page) : String := "\n".intercalate p.lines ++ "\n"

end Page

end ContractStubs
