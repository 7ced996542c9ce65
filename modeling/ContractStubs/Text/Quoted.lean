import ContractStubs.Text.Printable

/-!
# Quoted text

A text between quotation marks, with what cannot be shown written as an escape.
-/

namespace ContractStubs

/-- The code point of a character in braces, in hexadecimal. -/
def codePointEscape (c : Char) : List Char :=
  ['\\', 'u', '\x7b'] ++ Nat.toDigits 16 c.toNat ++ ['\x7d']

/-- One character inside a quotation. -/
def quotedChar (c : Char) : List Char :=
  if c = '\x00' then ['\\', '0']
  else if c = '\t' then ['\\', 't']
  else if c = '\r' then ['\\', 'r']
  else if c = '\n' then ['\\', 'n']
  else if c = '\"' then ['\\', '\"']
  else if c = '\\' then ['\\', '\\']
  else if isPrintable c then [c]
  else codePointEscape c

/-- The text between quotation marks. -/
def quoted (text : String) : String :=
  String.ofList (['\"'] ++ text.toList.flatMap quotedChar ++ ['\"'])

end ContractStubs
