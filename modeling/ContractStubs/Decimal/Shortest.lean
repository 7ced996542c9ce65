import ContractStubs.Decimal.Binary64

/-!
# The shortest decimal of a binary number

The fewest decimal digits that round back to a given number and, among these, the ones nearest to it. Small and large
magnitudes are written with an exponent.
-/

namespace ContractStubs

namespace Binary64

/-- Decimal digits, most significant first, and the power of ten of the last of them. -/
structure Digits where
  digits : List Char
  power : Int
  deriving DecidableEq, Repr, Inhabited

/-- The number of decimal digits before the point, counted below zero for leading zeros behind it. -/
def magnitude (num den : Nat) : Int :=
  if num ≥ den then (Nat.toDigits 10 (num / den)).length
  else -(((Nat.toDigits 10 ((den - 1) / num)).length : Int) - 1)

/-- `c · 10^power` lies among the reals that round to `x`. -/
def roundsBack (x : Binary64) (c : Nat) (power : Int) : Bool :=
  let below := if x.mantissa = twoTo 52 && x.exponent > minExponent then 1 else 2
  let e := x.exponent - 2
  let scale := fun (n : Nat) => n * twoTo e.toNat * tenTo (-power).toNat
  let value := c * tenTo power.toNat * twoTo (-e).toNat
  let low := scale (4 * x.mantissa - below)
  let high := scale (4 * x.mantissa + 2)
  if x.mantissa % 2 = 0 then low ≤ value && value ≤ high else low < value && value < high

/-- The candidate with the last digit at `power`, if one of the two neighbours on that grid rounds back. -/
def candidate? (x : Binary64) (power : Int) : Option Nat :=
  let num := x.numerator * tenTo (-power).toNat
  let den := x.denominator * tenTo power.toNat
  let below := num / den
  match roundsBack x below power, roundsBack x (below + 1) power with
  | true, false => some below
  | false, true => some (below + 1)
  | false, false => none
  | true, true => some (roundDiv num den)

/-- Digits without zeros at their end. -/
def trimZeros : List Char → Int → Digits
  | [], power => ⟨[], power⟩
  | '0' :: reversed, power => trimZeros reversed (power + 1)
  | reversed, power => ⟨reversed.reverse, power⟩

/-- The fewest digits that round back, tried from one digit on. -/
def shortest (x : Binary64) : Digits :=
  let top := magnitude x.numerator x.denominator
  let powers := (List.range 17).map fun (n : Nat) => top - 1 - (n : Int)
  match powers.findSome? fun power => (x.candidate? power).map fun c => (c, power) with
  | some (c, power) => trimZeros (Nat.toDigits 10 c).reverse power
  | none => ⟨['0'], 0⟩

/-- Magnitudes that are written without an exponent: up to 16 digits before the point, up to four zeros behind it. -/
def isPositional (point : Int) : Bool := -5 < point && point ≤ 16

/-- An exponent, its sign always written. -/
def exponentText (e : Int) : List Char := ['e', if e < 0 then '-' else '+'] ++ Nat.toDigits 10 e.natAbs

/-- The text of digits: a point always stands in it unless a single digit has an exponent. -/
def Digits.toText (d : Digits) : List Char :=
  let point : Int := d.digits.length + d.power
  if isPositional point then
    if d.power ≥ 0 then d.digits ++ List.replicate d.power.toNat '0' ++ ['.', '0']
    else if point > 0 then d.digits.take point.toNat ++ ['.'] ++ d.digits.drop point.toNat
    else ['0', '.'] ++ List.replicate (-point).toNat '0' ++ d.digits
  else match d.digits with
    | [] => []
    | [c] => c :: exponentText (point - 1)
    | c :: cs => c :: '.' :: cs ++ exponentText (point - 1)

/-- The shortest text of a number. -/
def toText (x : Binary64) : String :=
  if x.mantissa = 0 then "0.0" else String.ofList x.shortest.toText

end Binary64

end ContractStubs
