import BoundedLogic.Numeric.Binary64

set_option relaxedAutoImplicit false
set_option autoImplicit false

/-!
# Decimal texts of reals

A real is written in one of three ways: with the fewest digits that read back as the same real, in
plain positional notation; with the same digits in compact notation, where very large and very
small numbers get an exponent; or with a fixed number of decimal places.

The fewest digits are searched for on decimal grids, from the coarsest one down. On each grid only
the two neighbours of the real matter: if any point of the grid rounds to the real, one of these
two does.

## Main definitions

* `BoundedLogic.Decimal` — a natural times a power of ten.
* `BoundedLogic.Binary64.shortestDecimal` — the decimal with the fewest digits that reads back.
* `BoundedLogic.Decimal.positional`, `BoundedLogic.Decimal.compact` — the two notations.
* `BoundedLogic.Binary64.text`, `BoundedLogic.Binary64.compactText?`,
  `BoundedLogic.Binary64.fixedText` — the texts of a real.
-/

namespace BoundedLogic

/-- The number `digits * 10 ^ exponent`. -/
structure Decimal where
  /-- The digits, read as one natural. -/
  digits : Nat
  /-- The power of ten of the last digit. -/
  exponent : Int
  deriving DecidableEq, Repr

/-! ### Notations -/

namespace Decimal

/-- A word of `n` zeros. -/
def zeros (n : Nat) : String :=
  String.ofList (List.replicate n '0')

/-- The digits with a point before the last `places` of them, zeros filled in on the left. -/
def withPoint (digits places : Nat) : String :=
  let text := (Nat.repr digits).toList
  let padded := List.replicate (places + 1 - text.length) '0' ++ text
  let whole := padded.length - places
  String.ofList (padded.take whole) ++ "." ++ String.ofList (padded.drop whole)

/-- Plain notation: every digit at its place, a point only before decimal places. -/
def positional (d : Decimal) : String :=
  if 0 ≤ d.exponent then Nat.repr d.digits ++ zeros d.exponent.toNat
  else withPoint d.digits (-d.exponent).toNat

/-- Compact notation. The point stands after the first `point` digits; positional notation is kept
while that is more than `-5` and at most `16`, with `.0` after a whole number. Otherwise the point
follows the first digit and a power of ten the last. -/
def compact (d : Decimal) : String :=
  let text := Nat.repr d.digits
  let point : Int := text.length + d.exponent
  if 0 ≤ d.exponent ∧ point ≤ 16 then text ++ zeros d.exponent.toNat ++ ".0"
  else if -5 < point ∧ point ≤ 16 then withPoint d.digits (-d.exponent).toNat
  else
    let mantissa :=
      if text.length = 1 then text
      else String.ofList (text.toList.take 1) ++ "." ++ String.ofList (text.toList.drop 1)
    mantissa ++ "e" ++ Int.repr (point - 1)

end Decimal

/-! ### The fewest digits -/

namespace Binary64

/-- The distance from a real down to the next smaller one, in halves of a unit: a whole step,
except below a power of two, where the spacing changes. -/
def halfStepsBelow (r : Binary64) : Nat :=
  if r.fraction = 0 ∧ 1 < r.exponentField then Nat.pow 2 r.scale else 2 * Nat.pow 2 r.scale

/-- Does a quotient `n / d`, counted in quarters of a unit, round to the positive finite real `r`?
It does strictly between the two midpoints next to `r`, and at these if the significand is
even. -/
def isRounding (r : Binary64) (n d : Nat) : Bool :=
  let low := (4 * r.units - r.halfStepsBelow) * d
  let high := (4 * r.units + 2 * Nat.pow 2 r.scale) * d
  if r.significand % 2 = 0 then decide (low ≤ n ∧ n ≤ high) else decide (low < n ∧ n < high)

/-- Does `k * 10 ^ e` round to the positive finite real `r`? -/
def isDecimalOf (r : Binary64) (k : Nat) (e : Int) : Bool :=
  r.isRounding (k * Nat.pow 10 e.toNat * (4 * unitsPerOne)) (Nat.pow 10 (-e).toNat)

/-- The search for a decimal of `r` on the grid of `10 ^ e`, then on finer ones. Of two neighbours
on one grid that both read back, the nearer is taken. -/
def searchDecimal (r : Binary64) (tie : Tie) : Nat → Int → Decimal
  | 0, e => ⟨roundDiv tie (r.units * Nat.pow 10 (-e).toNat) (unitsPerOne * Nat.pow 10 e.toNat), e⟩
  | fuel + 1, e =>
    let num := r.units * Nat.pow 10 (-e).toNat
    let den := unitsPerOne * Nat.pow 10 e.toNat
    let below := num / den
    match r.isDecimalOf below e, r.isDecimalOf (below + 1) e with
    | true, true => ⟨roundDiv tie num den, e⟩
    | true, false => ⟨below, e⟩
    | false, true => ⟨below + 1, e⟩
    | false, false => searchDecimal r tie fuel (e - 1)

/-- The decimal with the fewest digits that reads back as the positive finite real `r`, and the
nearest to `r` of these. The search starts at a power of ten above `r`; seventeen digits always
read back, so twenty grids are enough. -/
def shortestDecimal (r : Binary64) (tie : Tie) : Decimal :=
  r.searchDecimal tie 20 ((((r.units.log2 : Int) - 1073) * 30103) / 100000 + 1)

/-! ### Texts -/

/-- The sign as it is written. -/
def signText (r : Binary64) : String :=
  if r.negative then "-" else ""

/-- The text of a real: the fewest digits in plain notation, of two equally near decimals the
larger one. Both zeros keep their sign. -/
def text (r : Binary64) : String :=
  if r.isNaN then "NaN"
  else if r.isInfinite then r.signText ++ "inf"
  else if r.magnitude = 0 then r.signText ++ "0"
  else r.signText ++ (r.shortestDecimal .up).positional

/-- The compact text of a finite real, of two equally near decimals the even one; there is none of
an infinity or a NaN. -/
def compactText? (r : Binary64) : Option String :=
  if !r.isFinite then none
  else if r.magnitude = 0 then some (r.signText ++ "0.0")
  else some (r.signText ++ (r.shortestDecimal .toEven).compact)

/-- The text of a finite real with the given number of decimal places, the exact value rounded to
nearest with ties to even. -/
def fixedText (r : Binary64) (places : Nat) : String :=
  let digits := roundDiv .toEven (r.units * Nat.pow 10 places) unitsPerOne
  r.signText ++ (if places = 0 then Nat.repr digits else Decimal.withPoint digits places)

end Binary64

end BoundedLogic
