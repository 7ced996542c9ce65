import ContractStubs.Text.CharRange

/-!
# Blanks and words

The characters of the property White_Space, and the cuts of a text at them: the ends of a text (`trimBlank`), its
words, and the compact form in which the words stand one space apart.
-/

namespace ContractStubs

/-- The code points of all blanks. -/
def blankRanges : CharRanges :=
  [(0x9, 0xd), (0x20, 0x20), (0x85, 0x85), (0xa0, 0xa0), (0x1680, 0x1680), (0x2000, 0x200a), (0x2028, 0x2029),
   (0x202f, 0x202f), (0x205f, 0x205f), (0x3000, 0x3000)]

/-- A space, tab, line break or another blank of any script. -/
def isBlank (c : Char) : Bool := blankRanges.contains c

/-! ## On characters -/

/-- The characters without the blanks at their end. -/
def dropBlanksRight (cs : List Char) : List Char := (cs.reverse.dropWhile isBlank).reverse

/-- The characters without the blanks at either end. -/
def trimBlanks (cs : List Char) : List Char := dropBlanksRight (cs.dropWhile isBlank)

/-- The longest runs of characters that are not blank. -/
def blankSeparated : List Char → List (List Char)
  | [] => []
  | c :: cs =>
    if isBlank c then blankSeparated cs
    else match cs with
      | [] => [[c]]
      | d :: _ =>
        if isBlank d then [c] :: blankSeparated cs
        else match blankSeparated cs with
          | word :: words => (c :: word) :: words
          | [] => [[c]]

/-! ## On texts -/

/-- The text without the blanks at its start. -/
def trimBlankStart (text : String) : String := String.ofList (text.toList.dropWhile isBlank)

/-- The text without the blanks at either end. -/
def trimBlank (text : String) : String := String.ofList (trimBlanks text.toList)

/-- The words of a text. -/
def blankWords (text : String) : List String := (blankSeparated text.toList).map String.ofList

/-- The words of a text, one space apart. -/
def compact (text : String) : String := " ".intercalate (blankWords text)

/-- The text without any blank. -/
def withoutBlanks (text : String) : String := String.ofList (text.toList.filter fun c => !isBlank c)

end ContractStubs
