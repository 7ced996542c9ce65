/-!
# Texts from bytes

Bytes are read from left to right. Between characters the reader waits for a first byte; inside one it knows how many
bytes are to come and in which range the next must lie. A byte out of range ends the character without result and is
read again as a first byte.
-/

namespace ContractStubs

/-- Where a reader of bytes stands. -/
inductive Utf8State where
  /-- Between two characters. -/
  | between
  /-- Inside a character of which `count` more bytes are to come, the next of them from `low` to `high`. -/
  | inside (count : Nat) (low high : UInt8) (code : Nat)
  deriving DecidableEq, Repr, Inhabited

/-- What a first byte leads to: a character or none at once, or the inside of a character. -/
def utf8Start (b : UInt8) : Option Char ⊕ Utf8State :=
  if b < 0x80 then .inl (some (Char.ofNat b.toNat))
  else if b < 0xc2 then .inl none
  else if b < 0xe0 then .inr (.inside 1 0x80 0xbf (b.toNat - 0xc0))
  else if b < 0xf0 then
    .inr (.inside 2 (if b = 0xe0 then 0xa0 else 0x80) (if b = 0xed then 0x9f else 0xbf) (b.toNat - 0xe0))
  else if b < 0xf5 then
    .inr (.inside 3 (if b = 0xf0 then 0x90 else 0x80) (if b = 0xf4 then 0x8f else 0xbf) (b.toNat - 0xf0))
  else .inl none

/-- The state after a first byte, in front of the characters that the rest gives. -/
def utf8Begin (b : UInt8) (rest : Utf8State → List (Option Char)) : List (Option Char) :=
  match utf8Start b with
  | .inl c => c :: rest .between
  | .inr s => rest s

/-- The characters of bytes; where bytes make up no character there is none. -/
def utf8Chars : Utf8State → List UInt8 → List (Option Char)
  | .between, [] => []
  | .inside .., [] => [none]
  | .between, b :: bs => utf8Begin b fun s => utf8Chars s bs
  | .inside count low high code, b :: bs =>
    if low ≤ b && b ≤ high then
      if count ≤ 1 then some (Char.ofNat (64 * code + (b.toNat - 0x80))) :: utf8Chars .between bs
      else utf8Chars (.inside (count - 1) 0x80 0xbf (64 * code + (b.toNat - 0x80))) bs
    else none :: utf8Begin b fun s => utf8Chars s bs

/-- The text that bytes are, if all of them make up characters. -/
def textOfBytes? (bytes : List UInt8) : Option String :=
  let chars := utf8Chars .between bytes
  if chars.all Option.isSome then some (String.ofList (chars.filterMap id)) else none

/-- The text that bytes are, with a replacement character wherever they make up none. -/
def shownBytes (bytes : List UInt8) : String :=
  String.ofList ((utf8Chars .between bytes).map fun c => c.getD '\ufffd')

end ContractStubs
