import ContractStubs.Source.Directive
import ContractStubs.Source.Quotation

/-!
# From characters to tokens

The text is cut into pieces: gaps, notes (comments and directives) and the texts of tokens. A token takes all pieces
since the token before as its lead.
-/

namespace ContractStubs

namespace Source

/-- What a piece of source text is. -/
inductive PieceKind where
  | gap
  /-- A comment, or a directive that is no token. -/
  | note
  | token (kind : TokenKind)
  deriving DecidableEq, Repr, Inhabited

/-- A character that is not the end of a line. -/
def inLine (c : Char) : Bool := c ≠ '\n' && c ≠ '\r'

/-- The piece that starts with a number sign. -/
def directive (cs : List Char) : PieceKind × Split :=
  match directiveHead cs with
  | (.branching mark, head) => (.token (.branching mark), head)
  | (kind, head) =>
    let rest := directiveRest kind head.rest
    (.note, ⟨head.taken ++ rest.taken, rest.rest⟩)

/-- The marks of two characters. -/
def doubleMarks : List (Char × Char) :=
  [(':', ':'), ('=', '>'), ('=', '='), ('!', '='), ('<', '='), ('>', '='), ('-', '>'), ('+', '+'), ('-', '-'),
   ('&', '&'), ('|', '|'), ('?', '?'), ('.', '.'), ('<', '<')]

/-- The mark that the characters start with. -/
def mark (cs : List Char) : Split :=
  match cs with
  | c :: d :: _ => .behind (if doubleMarks.contains (c, d) then 2 else 1) cs
  | _ => .behind 1 cs

/-- The word that the characters start with, if they do. -/
def word? : List Char → Option Split
  | '@' :: c :: cs => if startsName c then some ((Split.behindRun continuesName (c :: cs)).cons '@') else none
  | c :: cs => if startsName c then some (.behindRun continuesName (c :: cs)) else none
  | [] => none

/-- A number goes on with both characters: a point with a digit behind it, or the letter of an exponent with its
sign. -/
def goesOnWith (inHexadecimal : Bool) (c d : Char) : Bool :=
  c = '.' && d.isDigit || !inHexadecimal && (c = 'e' || c = 'E') && (d = '+' || d = '-')

/-- A number from some place in it. -/
def numberEnd (inHexadecimal : Bool) : List Char → Split
  | [] => ⟨[], []⟩
  | [c] => if continuesName c then ⟨[c], []⟩ else ⟨[], [c]⟩
  | c :: d :: cs =>
    if goesOnWith inHexadecimal c d then ((numberEnd inHexadecimal cs).cons d).cons c
    else if continuesName c then (numberEnd inHexadecimal (d :: cs)).cons c
    else ⟨[], c :: d :: cs⟩

/-- The number that the characters start with, if they do. -/
def number? : List Char → Option Split
  | '0' :: 'x' :: cs => some (((numberEnd true cs).cons 'x').cons '0')
  | '0' :: 'X' :: cs => some (((numberEnd true cs).cons 'X').cons '0')
  | '.' :: d :: cs => if d.isDigit then some (((numberEnd false cs).cons d).cons '.') else none
  | c :: cs => if c.isDigit then some ((numberEnd false cs).cons c) else none
  | [] => none

/-- The piece that the characters start with. -/
def nextPiece (cs : List Char) : PieceKind × Split :=
  match cs with
  | '/' :: '/' :: _ => (.note, .behindRun inLine cs)
  | '/' :: '*' :: rest => (.note, ((commentEnd rest).cons '*').cons '/')
  | '#' :: _ => directive cs
  | c :: _ =>
    if isGap c then (.gap, .behindRun isGap cs)
    else match number? cs, quotation? cs, word? cs with
      | some number, _, _ => (.token .number, number)
      | none, some quotation, _ => (.token .literal, quotation)
      | none, none, some word => (.token .word, word)
      | none, none, none => (.token .mark, mark cs)
  | [] => (.gap, ⟨[], []⟩)

/-- The tokens of the characters from some place on, behind a lead with some notes, at most as many pieces as the fuel
says. -/
def tokensFrom : (fuel : Nat) → (place : Nat) → (lead : String) → (notes : List Note) → List Char → List Token
  | 0, _, _, _, _ => []
  | _, _, _, _, [] => []
  | fuel + 1, place, lead, notes, c :: cs =>
    let (kind, piece) := nextPiece (c :: cs)
    let behind := place + piece.taken.length
    match kind with
    | .gap => tokensFrom fuel behind (lead ++ piece.text) notes piece.rest
    | .note => tokensFrom fuel behind (lead ++ piece.text) (notes ++ [⟨place, piece.text⟩]) piece.rest
    | .token kind => ⟨kind, lead, notes, place, piece.text⟩ :: tokensFrom fuel behind "" [] piece.rest

/-- The tokens of a text. What stands behind the last one belongs to none. -/
def tokens (text : String) : List Token :=
  let cs := text.toList
  tokensFrom cs.length 0 "" [] cs

end Source

end ContractStubs
