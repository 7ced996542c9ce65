import ContractStubs.Text.Split

/-!
# Quoted text

Where a string or a character ends. Strings come in four forms: plain ones with backslashes, verbatim ones where a
quote is written twice, raw ones between runs of three quotes or more, and interpolated ones, whose holes hold code
with strings and comments of its own. The reader goes through a quotation character by character and keeps what it is
inside of.
-/

namespace ContractStubs

namespace Source

/-- A hole of a string: the number of braces that end it, how many brackets are open in it, and how many question marks
still wait for their colon. A colon that none waits for starts the format. -/
structure Hole where
  closing : Nat
  depth : Nat
  conditions : Nat
  deriving DecidableEq, Repr, Inhabited

/-- Something that ends at a place of its own. -/
inductive Inside where
  /-- A string without holes. -/
  | plain (verbatim : Bool)
  /-- A string with holes. -/
  | holed (verbatim : Bool)
  /-- A string between runs of quotes of this length, with holes in so many braces if there are any. -/
  | raw (quotes braces : Nat)
  | hole (hole : Hole)
  /-- The format behind the code of a hole, which so many braces end. -/
  | format (closing : Nat)
  /-- A comment up to the end of the line. -/
  | lineComment
  /-- A comment up to its mark. -/
  | comment
  /-- A character. -/
  | character
  deriving DecidableEq, Repr, Inhabited

/-- The number of times that the characters start with a character. -/
def countOf (c : Char) (cs : List Char) : Nat := (cs.takeWhile (· = c)).length

/-- The signs that open a quotation of one line or a verbatim one. None of them starts with another one. -/
def quotationSigns : List (List Char × Inside) :=
  [(['"'], .plain false), (['\''], .character), (['@', '"'], .plain true), (['$', '"'], .holed false),
   (['$', '@', '"'], .holed true), (['@', '$', '"'], .holed true)]

/-- What the characters open, and by how many of them, if they start with a quotation. -/
def opening? (cs : List Char) : Option (Inside × Nat) :=
  let dollars := countOf '$' cs
  let quotes := countOf '"' (cs.drop dollars)
  if quotes ≥ 3 then some (.raw quotes dollars, dollars + quotes)
  else (quotationSigns.find? fun entry => entry.1.isPrefixOf cs).map fun entry => (entry.2, entry.1.length)

/-! ## Steps

A step is told by the character that comes next and the one behind it, apart from the signs that open quotations. -/

/-- What reading is inside of after one more step, and the number of characters in it. -/
abbrev Step := List Inside × Nat

/-- A step inside a string, where the line may end it early. -/
def stepInText (self : Inside) (verbatim holed : Bool) (outer : List Inside) (c : Char) (next? : Option Char) : Step :=
  if c = '"' then if verbatim && next? = some '"' then (self :: outer, 2) else (outer, 1)
  else if c = '\\' && next?.isSome then (self :: outer, if verbatim then 1 else 2)
  else if c = '\x7b' && next? = some '\x7b' then (self :: outer, 2)
  else if c = '\x7b' && holed then (.hole ⟨1, 0, 0⟩ :: self :: outer, 1)
  else if c = '\n' && !verbatim then (outer, 0)
  else (self :: outer, 1)

/-- A step inside a string between runs of quotes. -/
def stepInRaw (quotes braces : Nat) (outer : List Inside) (cs : List Char) : Step :=
  let found := countOf '"' cs
  let braced := countOf '\x7b' cs
  if found ≥ quotes then (outer, found)
  else if braces > 0 && braced ≥ braces then (.hole ⟨braces, 0, 0⟩ :: .raw quotes braces :: outer, braced)
  else (.raw quotes braces :: outer, max (max found braced) 1)

/-- A step inside a hole that opens no quotation. -/
def stepInCode (h : Hole) (outer : List Inside) (c : Char) (next? : Option Char) : Step :=
  if c = '/' && next? = some '/' then (.lineComment :: .hole h :: outer, 2)
  else if c = '/' && next? = some '*' then (.comment :: .hole h :: outer, 2)
  else if ['(', '[', '\x7b'].contains c then (.hole { h with depth := h.depth + 1 } :: outer, 1)
  else if c = '\x7d' && h.depth = 0 then (outer, h.closing)
  else if [')', ']', '\x7d'].contains c then (.hole { h with depth := h.depth - 1 } :: outer, 1)
  else if c = ':' && next? = some ':' || c = '?' && next?.any ['?', '.', '['].contains then (.hole h :: outer, 2)
  else if h.depth > 0 then (.hole h :: outer, 1)
  else if c = '?' then (.hole { h with conditions := h.conditions + 1 } :: outer, 1)
  else if c = ':' && h.conditions > 0 then (.hole { h with conditions := h.conditions - 1 } :: outer, 1)
  else if c = ':' then (.format h.closing :: outer, 1)
  else (.hole h :: outer, 1)

/-- A step inside a character. -/
def stepInCharacter (outer : List Inside) (c : Char) (next? : Option Char) : Step :=
  if c = '\'' then (outer, 1)
  else if c = '\\' && next?.isSome then (.character :: outer, 2)
  else if c = '\n' then (outer, 0)
  else (.character :: outer, 1)

/-- A step inside a format. -/
def stepInFormat (closing : Nat) (outer : List Inside) (c : Char) : Step :=
  if c = '\x7d' then (outer, closing) else if c = '"' then (outer, 0) else (.format closing :: outer, 1)

/-- A step inside a comment. -/
def stepInComment (outer : List Inside) (c : Char) (next? : Option Char) : Step :=
  if c = '*' && next? = some '/' then (outer, 2) else (.comment :: outer, 1)

/-- A step inside a comment up to the end of the line. -/
def stepInLineComment (outer : List Inside) (c : Char) : Step :=
  if c = '\n' then (outer, 1) else (.lineComment :: outer, 1)

/-- A step from a character and those behind it. -/
def Inside.step (outer : List Inside) (c : Char) (cs : List Char) : Inside → Step
  | .plain verbatim => stepInText (.plain verbatim) verbatim false outer c cs.head?
  | .holed verbatim => stepInText (.holed verbatim) verbatim true outer c cs.head?
  | .raw quotes braces => stepInRaw quotes braces outer (c :: cs)
  | .hole h =>
    match opening? (c :: cs) with
    | some (inner, n) => (inner :: .hole h :: outer, n)
    | none => stepInCode h outer c cs.head?
  | .format closing => stepInFormat closing outer c
  | .lineComment => stepInLineComment outer c
  | .comment => stepInComment outer c cs.head?
  | .character => stepInCharacter outer c cs.head?

/-- The rest of a quotation, with the number of characters of the last step that are still to come. -/
def quotationFrom : (inside : List Inside) → (pending : Nat) → List Char → Split
  | _, _, [] => ⟨[], []⟩
  | inside, pending + 1, c :: cs => (quotationFrom inside pending cs).cons c
  | [], 0, cs => ⟨[], cs⟩
  | top :: outer, 0, c :: cs =>
    match top.step outer c cs with
    | (inside, n + 1) => (quotationFrom inside n cs).cons c
    | (_, 0) => ⟨[], c :: cs⟩

/-- The quotation that the characters start with, if they do, with the sign of its encoding. -/
def quotation? (cs : List Char) : Option Split :=
  (opening? cs).map fun (inside, n) =>
    let s := quotationFrom [inside] n cs
    match s.rest with
    | 'u' :: '8' :: rest => ⟨s.taken ++ ['u', '8'], rest⟩
    | 'U' :: '8' :: rest => ⟨s.taken ++ ['U', '8'], rest⟩
    | _ => s

end Source

end ContractStubs
