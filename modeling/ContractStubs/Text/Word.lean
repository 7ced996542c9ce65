import ContractStubs.Text.Digit
import ContractStubs.Text.Letter
import ContractStubs.Text.Mark

/-!
# Characters of words

The properties XID_Start and XID_Continue, which tell what a name in a program may start with and go on with, in
Version 16 of Unicode. They are the letters and what goes with them, apart from a few characters.
-/

namespace ContractStubs

/-- The code points that a word may start with besides letters and letter numbers. -/
def extraStartRanges : CharRanges := [(0x1885, 0x1886), (0x2118, 0x2118), (0x212e, 0x212e)]

/-- The code points of letters that no word may hold, since they fall apart into other characters or are signs. -/
def brokenLetterRanges : CharRanges :=
  [(0x37a, 0x37a), (0x2e2f, 0x2e2f), (0xfc5e, 0xfc63), (0xfdfa, 0xfdfb), (0xfe70, 0xfe70), (0xfe72, 0xfe72),
   (0xfe74, 0xfe74), (0xfe76, 0xfe76), (0xfe78, 0xfe78), (0xfe7a, 0xfe7a), (0xfe7c, 0xfe7c), (0xfe7e, 0xfe7e)]

/-- The code points of letters that stand in a word but not at its start. -/
def innerLetterRanges : CharRanges := [(0xe33, 0xe33), (0xeb3, 0xeb3), (0xff9e, 0xff9f)]

/-- The code points that a word may go on with besides letters, numbers, marks and connectors. -/
def extraPartRanges : CharRanges :=
  [(0xb7, 0xb7), (0x387, 0x387), (0x1369, 0x1371), (0x19da, 0x19da), (0x200c, 0x200d), (0x30fb, 0x30fb),
   (0xff65, 0xff65)]

/-- The property XID_Start. -/
def isWordStart (c : Char) : Bool :=
  (isLetter c || isLetterNumber c) && !brokenLetterRanges.contains c && !innerLetterRanges.contains c
    || extraStartRanges.contains c

/-- The property XID_Continue. -/
def isWordPart (c : Char) : Bool :=
  isWordStart c || isDecimalDigit c || isMark c || isConnector c || innerLetterRanges.contains c
    || extraPartRanges.contains c

end ContractStubs
