/-!
# Cuts of a text

The pieces of a text between separators, its lines, and what follows an opening or comes before an ending.
-/

namespace ContractStubs

/-- The pieces between the separators; a text without one is a single piece. -/
def piecesAt (separator : Char → Bool) : List Char → List (List Char)
  | [] => [[]]
  | c :: cs =>
    if separator c then [] :: piecesAt separator cs
    else match piecesAt separator cs with
      | piece :: pieces => (c :: piece) :: pieces
      | [] => [[c]]

/-- The pieces of a text between the separators. -/
def textPieces (separator : Char → Bool) (text : String) : List String :=
  (piecesAt separator text.toList).map String.ofList

/-- The last piece of a text. -/
def lastPiece (separator : Char → Bool) (text : String) : String :=
  String.ofList ((piecesAt separator text.toList).getLastD [])

/-- The lines of a text. A line feed, or a carriage return before one, ends a line; nothing after the last end is no
line. -/
def lineList : List Char → List (List Char)
  | [] => []
  | '\n' :: cs => [] :: lineList cs
  | '\r' :: '\n' :: cs => [] :: lineList cs
  | c :: [] => [[c]]
  | c :: d :: cs =>
    match lineList (d :: cs) with
    | line :: lines => (c :: line) :: lines
    | [] => [[c]]

/-- The lines of a text. -/
def textLines (text : String) : List String := (lineList text.toList).map String.ofList

/-- What follows an opening, if the characters start with it. -/
def afterOpening? : List Char → List Char → Option (List Char)
  | [], cs => some cs
  | _ :: _, [] => none
  | o :: opening, c :: cs => if o = c then afterOpening? opening cs else none

/-- What follows an opening in a text, if it starts with it. -/
def stripOpening? (opening text : String) : Option String :=
  (afterOpening? opening.toList text.toList).map String.ofList

/-- What comes before an ending in a text, if it ends with it. -/
def stripEnding? (ending text : String) : Option String :=
  (afterOpening? ending.toList.reverse text.toList.reverse).map fun cs => String.ofList cs.reverse

/-- The text ends with an ending. -/
def endsWith (ending text : String) : Bool := (stripEnding? ending text).isSome

/-- The text starts with an opening. -/
def startsWith (opening text : String) : Bool := (stripOpening? opening text).isSome

/-- Each occurrence of two neighbouring characters gets a third one between them. -/
def sunder (left right between : Char) : List Char → List Char
  | a :: b :: cs =>
    if a = left && b = right then a :: between :: b :: sunder left right between cs
    else a :: sunder left right between (b :: cs)
  | cs => cs

end ContractStubs
