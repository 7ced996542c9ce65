/-!
# The digest MD5

A digest of 128 bits, written with 32 hexadecimal digits. The message is filled up to whole blocks of 64 bytes, and each
block is mixed into four words in 64 steps.
-/

namespace ContractStubs

namespace Md5

/-- The four words. -/
structure Words where
  a : UInt32
  b : UInt32
  c : UInt32
  d : UInt32
  deriving DecidableEq, Repr, Inhabited

/-- The words before the first block. -/
def start : Words := ⟨0x67452301, 0xefcdab89, 0x98badcfe, 0x10325476⟩

/-- The constant of each step: the first 32 bits of the sine of its number. -/
def constants : List UInt32 :=
  [0xd76aa478, 0xe8c7b756, 0x242070db, 0xc1bdceee, 0xf57c0faf, 0x4787c62a, 0xa8304613, 0xfd469501,
   0x698098d8, 0x8b44f7af, 0xffff5bb1, 0x895cd7be, 0x6b901122, 0xfd987193, 0xa679438e, 0x49b40821,
   0xf61e2562, 0xc040b340, 0x265e5a51, 0xe9b6c7aa, 0xd62f105d, 0x02441453, 0xd8a1e681, 0xe7d3fbc8,
   0x21e1cde6, 0xc33707d6, 0xf4d50d87, 0x455a14ed, 0xa9e3e905, 0xfcefa3f8, 0x676f02d9, 0x8d2a4c8a,
   0xfffa3942, 0x8771f681, 0x6d9d6122, 0xfde5380c, 0xa4beea44, 0x4bdecfa9, 0xf6bb4b60, 0xbebfbc70,
   0x289b7ec6, 0xeaa127fa, 0xd4ef3085, 0x04881d05, 0xd9d4d039, 0xe6db99e5, 0x1fa27cf8, 0xc4ac5665,
   0xf4292244, 0x432aff97, 0xab9423a7, 0xfc93a039, 0x655b59c3, 0x8f0ccc92, 0xffeff47d, 0x85845dd1,
   0x6fa87e4f, 0xfe2ce6e0, 0xa3014314, 0x4e0811a1, 0xf7537e82, 0xbd3af235, 0x2ad7d2bb, 0xeb86d391]

/-- How far each step turns the sum, four steps at a time. -/
def turns (step : Nat) : UInt32 :=
  (([[7, 12, 17, 22], [5, 9, 14, 20], [4, 11, 16, 23], [6, 10, 15, 21]].getD (step / 16) []).getD (step % 4) 0)

/-- The word of the block that a step takes. -/
def wordIndex (step : Nat) : Nat :=
  match step / 16 with
  | 0 => step
  | 1 => (5 * step + 1) % 16
  | 2 => (3 * step + 5) % 16
  | _ => (7 * step) % 16

/-- How a step combines three of the words. -/
def combine (step : Nat) (b c d : UInt32) : UInt32 :=
  match step / 16 with
  | 0 => (b &&& c) ||| (~~~b &&& d)
  | 1 => (d &&& b) ||| (~~~d &&& c)
  | 2 => b ^^^ c ^^^ d
  | _ => c ^^^ (b ||| ~~~d)

/-- A word turned to the left. -/
def turnLeft (x count : UInt32) : UInt32 := (x <<< count) ||| (x >>> (32 - count))

/-- One step with a block. -/
def mix (block : Array UInt32) (w : Words) (step : UInt32 × Nat) : Words :=
  let sum := w.a + combine step.2 w.b w.c w.d + step.1 + block.getD (wordIndex step.2) 0
  ⟨w.d, w.b + turnLeft sum (turns step.2), w.b, w.c⟩

/-- The words after a block. -/
def absorb (w : Words) (block : Array UInt32) : Words :=
  let v := constants.zipIdx.foldl (mix block) w
  ⟨w.a + v.a, w.b + v.b, w.c + v.c, w.d + v.d⟩

/-- A number as bytes, the lowest first. -/
def lowestFirst : (count : Nat) → Nat → List UInt8
  | 0, _ => []
  | count + 1, n => n.toUInt8 :: lowestFirst count (n / 256)

/-- A message filled up to whole blocks: a one bit, zeros, and the length in bits. -/
def fillUp (message : List UInt8) : List UInt8 :=
  message ++ 0x80 :: List.replicate ((119 - message.length % 64) % 64) 0 ++ lowestFirst 8 (8 * message.length)

/-- The words that bytes make up, four bytes each. -/
def wordsOf : List UInt8 → List UInt32
  | b0 :: b1 :: b2 :: b3 :: bytes =>
    (b0.toUInt32 ||| (b1.toUInt32 <<< 8) ||| (b2.toUInt32 <<< 16) ||| (b3.toUInt32 <<< 24)) :: wordsOf bytes
  | _ => []

/-- The blocks that words make up, sixteen words each. -/
def blocksOf : (count : Nat) → List UInt32 → List (Array UInt32)
  | 0, _ => []
  | count + 1, words => (words.take 16).toArray :: blocksOf count (words.drop 16)

/-- The two digits of a byte. -/
def byteText (b : UInt8) : List Char :=
  (if b.toNat < 16 then ['0'] else []) ++ Nat.toDigits 16 b.toNat

/-- The bytes of the words. -/
def Words.bytes (w : Words) : List UInt8 := [w.a, w.b, w.c, w.d].flatMap fun x => lowestFirst 4 x.toNat

end Md5

/-- The digest of a message. -/
def md5 (message : List UInt8) : String :=
  let words := Md5.wordsOf (Md5.fillUp message)
  String.ofList (((Md5.blocksOf (words.length / 16) words).foldl Md5.absorb Md5.start).bytes.flatMap Md5.byteText)

/-- The bytes of a text. -/
def textBytes (text : String) : List UInt8 := text.toList.flatMap String.utf8EncodeChar

end ContractStubs
