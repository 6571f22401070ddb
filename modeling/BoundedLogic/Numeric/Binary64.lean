import BoundedLogic.Numeric.Rounding

set_option relaxedAutoImplicit false
set_option autoImplicit false

/-!
# Binary64 reals

A real of the value language is a 64-bit word: a sign bit, eleven exponent bits and fifty-two
fraction bits. All that is asked of it here — its place in the order, whether it is integral, what
integer it is — is read off the word with exact integer arithmetic. Finite reals are counted in
units of `2 ^ -1074`, the smallest positive real, in which each of them is an integer.

## Main definitions

* `BoundedLogic.Binary64` — a real, given by its word.
* `BoundedLogic.Binary64.scaled` — the integer number of units in a finite real.
* `BoundedLogic.Binary64.orderKey` — the integer that orders all reals, infinities and NaNs
  included, with both zeros at one place.
* `BoundedLogic.Binary64.ofRatio` — the real nearest to a quotient of naturals.
* `BoundedLogic.Binary64.toInt64` — the 64-bit integer a real is cast to.
* `BoundedLogic.Binary64.compareInt` — the order of a 64-bit integer and a real.
-/

namespace BoundedLogic

/-- A real number as its binary64 word. -/
structure Binary64 where
  /-- The word: sign, exponent and fraction, from the highest bit down. -/
  bits : UInt64
  deriving DecidableEq, Repr

namespace Binary64

/-! ### The parts of the word -/

/-- The sign bit. It is set for `-0.0` and may be set for a NaN. -/
def negative (r : Binary64) : Bool :=
  decide (Nat.pow 2 63 ≤ r.bits.toNat)

/-- The word without its sign bit. -/
def magnitude (r : Binary64) : Nat :=
  r.bits.toNat % Nat.pow 2 63

/-- The magnitude of the infinities: the exponent bits are all set and the fraction is zero. -/
def infiniteMagnitude : Nat :=
  0x7FF * Nat.pow 2 52

/-- A NaN has a magnitude above the infinities. -/
def isNaN (r : Binary64) : Bool :=
  decide (infiniteMagnitude < r.magnitude)

/-- One of the two infinities. -/
def isInfinite (r : Binary64) : Bool :=
  decide (r.magnitude = infiniteMagnitude)

/-- Neither an infinity nor a NaN. -/
def isFinite (r : Binary64) : Bool :=
  decide (r.magnitude < infiniteMagnitude)

/-- The exponent bits. -/
def exponentField (r : Binary64) : Nat :=
  r.magnitude / Nat.pow 2 52

/-- The fraction bits. -/
def fraction (r : Binary64) : Nat :=
  r.magnitude % Nat.pow 2 52

/-- The significand: the fraction, below a leading one unless the exponent bits are zero. -/
def significand (r : Binary64) : Nat :=
  if r.exponentField = 0 then r.fraction else Nat.pow 2 52 + r.fraction

/-- The power of two by which the significand counts units of `2 ^ -1074`. -/
def scale (r : Binary64) : Nat :=
  r.exponentField - 1

/-! ### The value in units -/

/-- The number of units of `2 ^ -1074` in one. -/
def unitsPerOne : Nat :=
  Nat.pow 2 1074

/-- The absolute value of a finite real, in units of `2 ^ -1074`. -/
def units (r : Binary64) : Nat :=
  r.significand * Nat.pow 2 r.scale

/-- The value of a finite real, in units of `2 ^ -1074`. -/
def scaled (r : Binary64) : Int :=
  if r.negative then -(r.units : Int) else r.units

/-- A finite real without a fractional part. -/
def isIntegral (r : Binary64) : Bool :=
  r.isFinite && r.units % unitsPerOne == 0

/-- The integer part of a finite real, toward zero. -/
def truncate (r : Binary64) : Int :=
  r.scaled.tdiv unitsPerOne

/-! ### Rounding -/

/-- The real whose significand `m` counts `2 ^ s` units. The two fields of the word overlap by
the leading bit of the significand, so a significand of `2 ^ 53`, left by rounding up, carries into
the exponent; what is too large becomes infinite. -/
def encode (m s : Nat) : Binary64 :=
  ⟨(min (s * Nat.pow 2 52 + m) infiniteMagnitude).toUInt64⟩

/-- The real nearest to `n / d` units, ties going to the even significand. -/
def ofUnits (n d : Nat) : Binary64 :=
  let s := (n / d).log2 - 52
  encode (roundDiv .toEven n (d * Nat.pow 2 s)) s

/-- The real nearest to `n / d`. -/
def ofRatio (n d : Nat) : Binary64 :=
  ofUnits (n * unitsPerOne) d

/-- The real nearest to a natural. -/
def ofNat (n : Nat) : Binary64 :=
  ofRatio n 1

/-- The real with the sign bit turned over. -/
def neg (r : Binary64) : Binary64 :=
  ⟨r.bits ^^^ 0x8000000000000000⟩

/-- The real nearest to an integer. -/
def ofInt (i : Int) : Binary64 :=
  if i < 0 then (ofNat i.natAbs).neg else ofNat i.natAbs

/-- The real nearest to the sum of the absolute values of two finite reals. -/
def addUnsigned (a b : Binary64) : Binary64 :=
  ofUnits (a.units + b.units) 1

/-- The real nearest to the product of the absolute values of two finite reals. -/
def mulUnsigned (a b : Binary64) : Binary64 :=
  ofUnits (a.units * b.units) unitsPerOne

/-! ### Order -/

/-- The place of a real among all reals. Negative NaNs come first and positive ones last, each
ordered by its payload; the two zeros share the key `0`. -/
def orderKey (r : Binary64) : Int :=
  if r.negative then -(r.magnitude : Int) else r.magnitude

instance : Ord Binary64 where
  compare a b := compare a.orderKey b.orderKey

/-- The real with `-0.0` replaced by `0.0`. -/
def unsignedZero (r : Binary64) : Binary64 :=
  if r.magnitude = 0 then ⟨0⟩ else r

/-- `2 ^ 63`, the least real above every 64-bit integer. -/
def aboveInt64 : Binary64 :=
  ⟨0x43E0000000000000⟩

/-- The 64-bit integer a real is cast to: its integer part or, where that is past one of the
bounds, the bound. A NaN is cast to zero. -/
def toInt64 (r : Binary64) : Int64 :=
  if r.isNaN then 0
  else Int64.ofInt (max Int64.minValue.toInt (min r.truncate Int64.maxValue.toInt))

/-- The order of a 64-bit integer and a real. The integer is rounded to a real first; where that
real is the given one, it is cast back and the integers decide, unless it is above all of them. An
integer is below the positive NaNs and above the negative ones. -/
def compareInt (i : Int64) (r : Binary64) : Ordering :=
  if r.isNaN then
    if r.negative then .gt else .lt
  else
    (compare (ofInt i.toInt) r).then
      (if (compare aboveInt64 r).isLE then .lt else compare i.toInt r.toInt64.toInt)

end Binary64

end BoundedLogic
