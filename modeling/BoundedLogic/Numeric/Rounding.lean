set_option relaxedAutoImplicit false
set_option autoImplicit false

/-!
# Rounding a quotient

Every number this library rounds is a quotient of two naturals: a real to be stored in 53 bits, a
decimal digit to be chosen, a time to be shown with three places. The nearest natural is taken
each time, and what differs is only where a tie goes.

## Main definitions

* `BoundedLogic.Tie` — where the midpoint between two neighbours goes.
* `BoundedLogic.roundDiv` — the natural nearest to a quotient.

## Main results

* `BoundedLogic.roundDiv_mul_le`, `BoundedLogic.le_roundDiv_mul` — the rounded quotient is within
  half a unit of the quotient.
-/

namespace BoundedLogic

/-- Where the midpoint between two neighbouring naturals is rounded to. -/
inductive Tie where
  /-- To the even one of the two neighbours. -/
  | toEven
  /-- To the larger one of the two neighbours. -/
  | up
  deriving DecidableEq, Repr

/-- The neighbour of `q` and `q + 1` that their midpoint is rounded to. -/
def Tie.settle : Tie → Nat → Nat
  | .toEven, q => q + q % 2
  | .up, q => q + 1

/-- The natural nearest to `n / d`, a midpoint going where `tie` says. -/
def roundDiv (tie : Tie) (n d : Nat) : Nat :=
  if 2 * (n % d) < d then n / d
  else if d < 2 * (n % d) then n / d + 1
  else tie.settle (n / d)

/-- A midpoint is rounded to one of its two neighbours. -/
theorem Tie.settle_eq_or (tie : Tie) (q : Nat) : tie.settle q = q ∨ tie.settle q = q + 1 := by
  cases tie with
  | toEven => simp only [Tie.settle]; omega
  | up => exact .inr rfl

/-- A rounded quotient is at most half a unit above the quotient. -/
theorem roundDiv_mul_le (tie : Tie) (n d : Nat) (hd : 0 < d) :
    2 * (roundDiv tie n d * d) ≤ 2 * n + d := by
  have hn := Nat.div_add_mod n d
  have hr := Nat.mod_lt n hd
  have hq : (n / d + 1) * d = d * (n / d) + d := by rw [Nat.add_mul, Nat.mul_comm, Nat.one_mul]
  have hq' : n / d * d = d * (n / d) := Nat.mul_comm _ _
  unfold roundDiv
  split
  · omega
  · split
    · omega
    · rcases tie.settle_eq_or (n / d) with h | h <;> rw [h] <;> omega

/-- A rounded quotient is at most half a unit below the quotient. -/
theorem le_roundDiv_mul (tie : Tie) (n d : Nat) (hd : 0 < d) :
    2 * n ≤ 2 * (roundDiv tie n d * d) + d := by
  have hn := Nat.div_add_mod n d
  have hr := Nat.mod_lt n hd
  have hq : (n / d + 1) * d = d * (n / d) + d := by rw [Nat.add_mul, Nat.mul_comm, Nat.one_mul]
  have hq' : n / d * d = d * (n / d) := Nat.mul_comm _ _
  unfold roundDiv
  split
  · omega
  · split
    · omega
    · rcases tie.settle_eq_or (n / d) with h | h <;> rw [h] <;> omega

/-- A quotient that is a natural is its own rounding. -/
theorem roundDiv_of_dvd (tie : Tie) {n d : Nat} (hd : 0 < d) (h : n % d = 0) :
    roundDiv tie n d = n / d := by
  simp [roundDiv, h, hd]

end BoundedLogic
