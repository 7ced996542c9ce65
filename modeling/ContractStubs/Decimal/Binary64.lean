/-!
# Binary floating point

The powers of the two bases between which numbers are converted, numbers of the form `m · 2^e` with 53 bits, and the
rounding of a fraction to the nearest of them.
-/

namespace ContractStubs

/-- A power of two. -/
def twoTo (n : Nat) : Nat := Nat.pow 2 n

/-- A power of ten. -/
def tenTo (n : Nat) : Nat := Nat.pow 10 n

/-- A finite number of 53 bits without its sign: `mantissa · 2^exponent`. -/
structure Binary64 where
  mantissa : Nat
  exponent : Int
  deriving DecidableEq, Repr, Inhabited

namespace Binary64

/-- The least exponent. -/
def minExponent : Int := -1074

/-- The greatest exponent. -/
def maxExponent : Int := 971

/-- The numerator of the value as a fraction. -/
def numerator (x : Binary64) : Nat := x.mantissa * twoTo x.exponent.toNat

/-- The denominator of the value as a fraction. -/
def denominator (x : Binary64) : Nat := twoTo (-x.exponent).toNat

/-- A fraction rounded to a whole number, a half going to the even neighbour. -/
def roundDiv (num den : Nat) : Nat :=
  let q := num / den
  let twice := 2 * (num % den)
  if twice > den || (twice == den && q % 2 == 1) then q + 1 else q

/-- The number nearest to a fraction, or nothing where it is too large. -/
def ofFraction? (num den : Nat) : Option Binary64 :=
  if num = 0 then some ⟨0, minExponent⟩
  else
    let guess : Int := (num.log2 : Int) - den.log2 - 53
    let exact := fun (e : Int) => (num * twoTo (-e).toNat, den * twoTo e.toNat)
    let fits := fun (e : Int) => let (n, d) := exact e; n / d < twoTo 53
    let e := if fits guess then guess else if fits (guess + 1) then guess + 1 else guess + 2
    let e := max e minExponent
    let (n, d) := exact e
    let m := roundDiv n d
    let (m, e) := if m = twoTo 53 then (twoTo 52, e + 1) else (m, e)
    if e > maxExponent then none else some ⟨m, e⟩

/-- The number nearest to a whole number. -/
def ofNat? (n : Nat) : Option Binary64 := ofFraction? n 1

/-- The number nearest to a product. -/
def mul? (x y : Binary64) : Option Binary64 :=
  ofFraction? (x.numerator * y.numerator) (x.denominator * y.denominator)

/-- The number nearest to a quotient. -/
def div? (x y : Binary64) : Option Binary64 :=
  ofFraction? (x.numerator * y.denominator) (x.denominator * y.numerator)

end Binary64

end ContractStubs
