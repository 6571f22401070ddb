import BoundedLogic.Proofs.Value.TotalOrder
import Mathlib.Data.EReal.Basic
import Mathlib.Data.Int.ConditionallyCompleteOrder

set_option relaxedAutoImplicit false
set_option autoImplicit false

/-!
# Integers and reals compared as numbers

A binary64 real that is not a NaN stands for a number of the extended real line, which is read off
the sign, the exponent and the significand of its word. Comparing a 64-bit integer with it is
comparing the integer with that number, without any loss: for integers that no real is equal to, for
reals past all integers, for both zeros and for the infinities. A NaN stands for no number. By its
sign it is below or above everything else, the integers as well as the reals.

## Main definitions

* `BoundedLogic.Binary64.toEReal?` — the number a real stands for.

## Main results

* `BoundedLogic.Value.cmp_int_real_exact` — integers and reals are compared as numbers.
-/

namespace BoundedLogic

namespace Binary64

/-! ### The number a real stands for -/

/-- The number a real stands for: its signed significand times a power of two, or an infinity. A NaN
stands for none. -/
noncomputable def toEReal? (r : Binary64) : Option EReal :=
  if r.isNaN then none
  else if r.isInfinite then some (if r.negative then ⊥ else ⊤)
  else some (((if r.negative then -1 else 1) * r.significand * 2 ^ ((r.scale : ℤ) - 1074) : ℝ))

/-- Only a NaN stands for no number. -/
lemma toEReal?_eq_none_iff {r : Binary64} : r.toEReal? = none ↔ r.isNaN = true := by
  unfold toEReal?
  split
  case isTrue hnan => simp [hnan]
  case isFalse hnan => split <;> simp [hnan]

/-- The number with a given number of units. -/
noncomputable def ofScaled (k : Int) : EReal :=
  ((k / unitsPerOne : ℝ) : EReal)

lemma ofScaled_strictMono : StrictMono ofScaled := by
  intro a b hab
  have hpos : (0 : ℝ) < unitsPerOne := by exact_mod_cast unitsPerOne_pos
  exact EReal.coe_lt_coe (div_lt_div_of_pos_right (by exact_mod_cast hab) hpos)

/-- Numbers are in the order of their units. -/
lemma compare_ofScaled (a b : Int) : compare (ofScaled a) (ofScaled b) = compare a b := by
  rw [← cmp_eq_compare, ← cmp_eq_compare]
  exact ofScaled_strictMono.cmp_map_eq a b

/-- An integer is the number with its units. -/
lemma coe_int_eq_ofScaled (i : Int) : ((i : ℝ) : EReal) = ofScaled (i * unitsPerOne) := by
  have hne : (unitsPerOne : ℝ) ≠ 0 := by exact_mod_cast unitsPerOne_pos.ne'
  rw [ofScaled, Int.cast_mul, Int.cast_natCast, mul_div_cancel_right₀ _ hne]

/-- Powers of two, divided by each other. -/
lemma coe_mul_two_pow_div (m s p : Nat) :
    ((m * 2 ^ s : Nat) : ℝ) / ((2 ^ p : Nat) : ℝ) = m * 2 ^ ((s : ℤ) - p) := by
  rw [zpow_sub₀ two_ne_zero, zpow_natCast, zpow_natCast]
  push_cast
  rw [mul_div_assoc]

/-- A finite real stands for the number with its units. -/
lemma toEReal?_of_isFinite {r : Binary64} (h : r.isFinite = true) :
    r.toEReal? = some (ofScaled r.scaled) := by
  have hlt : r.magnitude < infiniteMagnitude := of_decide_eq_true h
  have hnan : r.isNaN = false := decide_eq_false hlt.not_gt
  have hinf : r.isInfinite = false := decide_eq_false hlt.ne
  have hunits : (r.units : ℝ) / unitsPerOne = r.significand * 2 ^ ((r.scale : ℤ) - 1074) := by
    have hdiv := coe_mul_two_pow_div r.significand r.scale 1074
    rwa [← unitsPerOne_eq, Nat.cast_ofNat] at hdiv
  have hsigned : (r.scaled : ℝ) / unitsPerOne =
      (if r.negative then -1 else 1) * r.significand * 2 ^ ((r.scale : ℤ) - 1074) := by
    rw [mul_assoc, ← hunits, scaled]
    split
    · rw [Int.cast_neg, Int.cast_natCast, neg_div, neg_one_mul]
    · rw [Int.cast_natCast, one_mul]
  rw [toEReal?, hnan, hinf, if_neg Bool.false_ne_true, if_neg Bool.false_ne_true, ofScaled, hsigned]

/-- A real that is not finite stands for an infinity of its sign, or is a NaN. -/
lemma toEReal?_of_not_isFinite {r : Binary64} (h : r.isFinite = false) (hnan : r.isNaN = false) :
    r.toEReal? = some (if r.negative then ⊥ else ⊤) := by
  have hge : infiniteMagnitude ≤ r.magnitude := Nat.le_of_not_lt (of_decide_eq_false h)
  have hle : r.magnitude ≤ infiniteMagnitude := Nat.le_of_not_lt (of_decide_eq_false hnan)
  have hinf : r.isInfinite = true := decide_eq_true (Nat.le_antisymm hle hge)
  rw [toEReal?, hnan, hinf, if_neg Bool.false_ne_true, if_pos rfl]

/-! ### Comparing -/

/-- **A 64-bit integer and a real** are compared as the integer and the number the real stands for;
a NaN is below or above the integer by its sign.

**Proof sketch.** The comparison is that of the units (`compareInt_eq_compare`), of which a finite
real and the integer have as many as the numbers they stand for. An infinity or a NaN has more units
than every 64-bit integer (`compare_scaled_of_infinite`). -/
theorem compareInt_eq_compare_toEReal (i : Int64) (r : Binary64) :
    compareInt i r = match r.toEReal? with
      | some x => compare ((i.toInt : ℝ) : EReal) x
      | none => if r.negative then .gt else .lt := by
  rw [compareInt_eq_compare]
  cases hfinite : r.isFinite with
  | true =>
    rw [toEReal?_of_isFinite hfinite, coe_int_eq_ofScaled]
    exact (compare_ofScaled _ _).symm
  | false =>
    rw [compare_scaled_of_infinite i (Nat.le_of_not_lt (of_decide_eq_false hfinite))]
    cases hnan : r.isNaN with
    | true => rw [toEReal?_eq_none_iff.mpr hnan]
    | false =>
      rw [toEReal?_of_not_isFinite hfinite hnan]
      cases r.negative with
      | true => exact (compare_gt_iff_gt.mpr (EReal.bot_lt_coe _)).symm
      | false => exact (compare_lt_iff_lt.mpr (EReal.coe_lt_top _)).symm

/-- A NaN has a place before or after every real that is not a NaN, by its sign.

**Proof sketch.** Its magnitude is above that of the infinities, and so above that of every real
which is not a NaN. -/
lemma compare_of_isNaN {s r : Binary64} (hs : s.isNaN = false) (hr : r.isNaN = true) :
    compare s r = if r.negative then .gt else .lt := by
  have hsle : s.magnitude ≤ infiniteMagnitude := Nat.le_of_not_lt (of_decide_eq_false hs)
  have hrlt : infiniteMagnitude < r.magnitude := of_decide_eq_true hr
  show compare s.orderKey r.orderKey = _
  unfold orderKey
  cases r.negative with
  | true =>
    rw [if_pos rfl, if_pos rfl, compare_gt_iff_gt]
    split <;> omega
  | false =>
    rw [if_neg Bool.false_ne_true, if_neg Bool.false_ne_true, compare_lt_iff_lt]
    split <;> omega

end Binary64

namespace Value

open Binary64

lemma cmp_int_real (i : Int64) (r : Binary64) : cmp (.int i) (.real r) = compareInt i r := by
  rw [cmp, canonical, canonical, compareListed] <;> simp

lemma cmp_real_real (s r : Binary64) : cmp (.real s) (.real r) = compare s r := by
  rw [cmp, canonical, canonical, compareListed] <;> simp

/-- **Integers and reals are compared as numbers**: an integer and a real that is not a NaN are in
the order of the integer and the number the real stands for, without rounding. An integer is above a
NaN whose sign bit is set and below any other NaN, and so is every real that is not a NaN. The real
compared with the integer gives the reverse order. -/
theorem cmp_int_real_exact (i : Int64) (r : Binary64) :
    (cmp (.int i) (.real r) = match r.toEReal? with
      | some x => compare ((i.toInt : ℝ) : EReal) x
      | none => if r.negative then .gt else .lt) ∧
    (r.toEReal? = none ↔ r.isNaN = true) ∧
    (r.isNaN = true → ∀ s : Binary64, s.isNaN = false →
      cmp (.real s) (.real r) = cmp (.int i) (.real r)) ∧
    cmp (.real r) (.int i) = (cmp (.int i) (.real r)).swap := by
  refine ⟨?_, toEReal?_eq_none_iff, fun hr s hs => ?_, cmp_eq_swap _ _⟩
  · rw [cmp_int_real, compareInt_eq_compare_toEReal]
  · rw [cmp_real_real, compare_of_isNaN hs hr, cmp_int_real, compareInt, if_pos hr]

/-- A NaN with its sign bit set is below zero, as it is below the negative infinity. -/
theorem cmp_int_real_exact_negativeNaN :
    (⟨0xFFF8000000000000⟩ : Binary64).isNaN = true ∧
      (⟨0xFFF0000000000000⟩ : Binary64).isNaN = false ∧
      cmp (.real ⟨0xFFF0000000000000⟩) (.real ⟨0xFFF8000000000000⟩) =
        cmp (.int 0) (.real ⟨0xFFF8000000000000⟩) := by
  have hnan : (⟨0xFFF8000000000000⟩ : Binary64).isNaN = true := by decide
  have hinfinity : (⟨0xFFF0000000000000⟩ : Binary64).isNaN = false := by decide
  exact ⟨hnan, hinfinity, (cmp_int_real_exact 0 _).2.2.1 hnan _ hinfinity⟩

end Value

end BoundedLogic
