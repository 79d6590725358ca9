/-!
# Binary floating point with 64 bits

Jitter and fractional settings are numbers of the 64-bit binary interchange format.  Only a few
operations on them matter here, and all of them are defined exactly on the bits: `ofRatio` rounds a
quotient of natural numbers to the nearest number (a half goes to the even neighbour), and the other
operations decode, compute on natural numbers, and round once.
-/

namespace WorkQueue

/-- A number of the 64-bit binary format, by its bits. -/
structure Binary64 where
  bits : UInt64
  deriving DecidableEq

namespace Binary64

/-! ## Parts -/

/-- The bits below the sign. -/
def magnitudeBits (x : Binary64) : Nat :=
  x.bits.toNat % Nat.pow 2 63

/-- Whether the sign bit is set. -/
def isNegative (x : Binary64) : Bool :=
  Nat.pow 2 63 ≤ x.bits.toNat

/-- The bits of positive infinity. -/
def infinityBits : Nat :=
  2047 * Nat.pow 2 52

/-- Whether the bits stand for no number at all. -/
def isNaN (x : Binary64) : Bool :=
  infinityBits < x.magnitudeBits

/-- Whether the number is infinite. -/
def isInfinite (x : Binary64) : Bool :=
  x.magnitudeBits == infinityBits

/-- A number put together from a sign and the bits below it. -/
def ofMagnitude (negative : Bool) (magnitude : Nat) : Binary64 :=
  ⟨UInt64.ofNat (if negative then Nat.pow 2 63 + magnitude else magnitude)⟩

/-- Zero. -/
def zero : Binary64 := ⟨0⟩

/-- One. -/
def one : Binary64 := ⟨0x3FF0000000000000⟩

/-- Infinity with a sign. -/
def infinity (negative : Bool) : Binary64 :=
  ofMagnitude negative infinityBits

/-- The value that stands for no number. -/
def notANumber : Binary64 := ⟨0x7FF8000000000000⟩

/-- The magnitude of a finite number as a quotient of natural numbers. -/
def ratio (x : Binary64) : Nat × Nat :=
  let exponent := x.magnitudeBits / Nat.pow 2 52
  let fraction := x.magnitudeBits % Nat.pow 2 52
  if exponent = 0 then (fraction, Nat.pow 2 1074)
  else if 1075 ≤ exponent then ((Nat.pow 2 52 + fraction) * Nat.pow 2 (exponent - 1075), 1)
  else (Nat.pow 2 52 + fraction, Nat.pow 2 (1075 - exponent))

/-! ## Rounding -/

/-- A quotient rounded to the nearest natural number, a half to the even one. -/
def roundToEven (num den : Nat) : Nat :=
  let whole := num / den
  let rest := num % den
  if den < 2 * rest || (den == 2 * rest && whole % 2 == 1) then whole + 1 else whole

/-- The quotient `num / den` divided by a power of two. -/
def scale (num den : Nat) (exponent : Int) : Nat × Nat :=
  if 0 ≤ exponent then (num, den * Nat.pow 2 exponent.toNat)
  else (num * Nat.pow 2 (-exponent).toNat, den)

/-- The exponent of the last binary place that a number as large as `num / den` keeps. -/
def lastPlace (num den : Nat) : Int :=
  let guess : Int := (num.log2 : Int) - (den.log2 : Int) - 52
  let (n, d) := scale num den guess
  max (if n < d * Nat.pow 2 52 then guess - 1 else guess) (-1074)

/-- The number nearest to `num / den`, with a sign. -/
def ofRatio (negative : Bool) (num den : Nat) : Binary64 :=
  if num = 0 then ofMagnitude negative 0
  else
    let place := lastPlace num den
    let (n, d) := scale num den place
    let digits := roundToEven n d
    let magnitude :=
      if digits < Nat.pow 2 52 then digits else ((place + 1075).toNat - 1) * Nat.pow 2 52 + digits
    if infinityBits ≤ magnitude then infinity negative else ofMagnitude negative magnitude

/-- The number nearest to a natural number. -/
def ofNat (n : Nat) : Binary64 :=
  ofRatio false n 1

/-- The number nearest to an integer. -/
def ofInt (n : Int) : Binary64 :=
  ofRatio (decide (n < 0)) n.natAbs 1

/-- The product of two finite numbers. -/
def mul (x y : Binary64) : Binary64 :=
  let (a, b) := x.ratio
  let (c, d) := y.ratio
  ofRatio (x.isNegative != y.isNegative) (a * c) (b * d)

/-- The quotient of two finite numbers, the second of which is not zero. -/
def div (x y : Binary64) : Binary64 :=
  let (a, b) := x.ratio
  let (c, d) := y.ratio
  ofRatio (x.isNegative != y.isNegative) (a * d) (b * c)

/-! ## Order -/

/-- The place of a number on the line; both zeros are at the same place. -/
def rank (x : Binary64) : Int :=
  if x.isNegative then -(x.magnitudeBits : Int) else x.magnitudeBits

/-- Whether `x` is at most `y`; false if one of them is no number. -/
def le (x y : Binary64) : Bool :=
  !x.isNaN && !y.isNaN && x.rank ≤ y.rank

/-- Whether `x` is less than `y`; false if one of them is no number. -/
def lt (x y : Binary64) : Bool :=
  !x.isNaN && !y.isNaN && x.rank < y.rank

/-- Whether the two are equal as numbers. -/
def same (x y : Binary64) : Bool :=
  !x.isNaN && !y.isNaN && x.rank == y.rank

/-- Whether the number is one of the zeros. -/
def isZero (x : Binary64) : Bool :=
  x.magnitudeBits == 0

/-- The number moved into the interval from `low` to `high`. -/
def clamp (low high x : Binary64) : Binary64 :=
  if x.lt low then low else if high.lt x then high else x

/-- The nearest natural number below `bound`, a half away from zero; what is negative or no number
becomes zero, and what is too large the greatest number below `bound`. -/
def toNatBelow (bound : Nat) (x : Binary64) : Nat :=
  if x.isNaN || x.isNegative then 0
  else if x.isInfinite then bound - 1
  else
    let (num, den) := x.ratio
    min ((2 * num + den) / (2 * den)) (bound - 1)

end Binary64

end WorkQueue
