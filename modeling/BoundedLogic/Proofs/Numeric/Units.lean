import BoundedLogic.Numeric.Binary64
import Mathlib.Order.Monotone.Basic
import Mathlib.Tactic.Lemma
import Mathlib.Tactic.Ring

set_option relaxedAutoImplicit false
set_option autoImplicit false

/-!
# Reals as numbers of units

The words of non-negative reals, read as naturals, are in the order of the numbers of units they
stand for. The formula for the units goes on in the same way beyond the finite reals, so the
infinities and the NaNs get numbers of units too, which are larger than those of all finite reals.
With the sign put in front, the order of all reals is the order of integers.

## Main definitions

* `BoundedLogic.Binary64.unitsAt` — the units of the real with a given magnitude.

## Main results

* `BoundedLogic.Binary64.unitsAt_strictMono` — magnitudes are in the order of their units.
* `BoundedLogic.Binary64.compare_eq_compare_scaled` — reals are in the order of their signed units.
-/

namespace BoundedLogic

namespace Binary64

/-! ### Units of a magnitude -/

/-- The number of units of `2 ^ -1074` that the word with a given magnitude stands for. -/
def unitsAt (m : Nat) : Nat :=
  (if m / 2 ^ 52 = 0 then m % 2 ^ 52 else 2 ^ 52 + m % 2 ^ 52) * 2 ^ (m / 2 ^ 52 - 1)

lemma units_eq_unitsAt (r : Binary64) : r.units = unitsAt r.magnitude := rfl

/-- The units of a magnitude without exponent bits. -/
lemma unitsAt_of_lt {f : Nat} (hf : f < 2 ^ 52) : unitsAt f = f := by
  have hdiv : f / 2 ^ 52 = 0 := by omega
  have hmod : f % 2 ^ 52 = f := by omega
  rw [unitsAt, hdiv, hmod, if_pos rfl]
  exact Nat.mul_one f

/-- The units of a magnitude with exponent bits. -/
lemma unitsAt_of_exponent (e : Nat) {f : Nat} (hf : f < 2 ^ 52) :
    unitsAt ((e + 1) * 2 ^ 52 + f) = (2 ^ 52 + f) * 2 ^ e := by
  have hdiv : ((e + 1) * 2 ^ 52 + f) / 2 ^ 52 = e + 1 := by omega
  have hmod : ((e + 1) * 2 ^ 52 + f) % 2 ^ 52 = f := by omega
  rw [unitsAt, hdiv, hmod, if_neg (Nat.succ_ne_zero e), Nat.add_sub_cancel]

/-- A magnitude has no exponent bits, or splits into its exponent and its fraction. -/
lemma magnitude_cases (m : Nat) :
    m < 2 ^ 52 ∨ ∃ e f, f < 2 ^ 52 ∧ m = (e + 1) * 2 ^ 52 + f := by
  by_cases h : m < 2 ^ 52
  · exact .inl h
  · exact .inr ⟨m / 2 ^ 52 - 1, m % 2 ^ 52, Nat.mod_lt _ (by norm_num), by omega⟩

/-- **Larger magnitudes** stand for more units.

**Proof sketch.** One step up either adds one to the fraction, which adds one to the significand, or
turns the largest fraction into the least one of the next exponent: then a significand of
`2 ^ 53 - 1` becomes one of `2 ^ 52` that counts units of twice the size. -/
theorem unitsAt_strictMono : StrictMono unitsAt := by
  refine strictMono_nat_of_lt_succ fun m => ?_
  obtain hm | ⟨e, f, hf, rfl⟩ := magnitude_cases m
  · rw [unitsAt_of_lt hm]
    by_cases hlast : m + 1 < 2 ^ 52
    · rw [unitsAt_of_lt hlast]
      exact Nat.lt_succ_self m
    · have hnext : m + 1 = (0 + 1) * 2 ^ 52 + 0 := by omega
      rw [hnext, unitsAt_of_exponent 0 (by norm_num)]
      omega
  · have hpos : 0 < 2 ^ e := Nat.two_pow_pos e
    rw [unitsAt_of_exponent e hf]
    by_cases hlast : f + 1 < 2 ^ 52
    · rw [Nat.add_assoc, unitsAt_of_exponent e hlast]
      exact Nat.mul_lt_mul_of_pos_right (by omega) hpos
    · have hnext : (e + 1) * 2 ^ 52 + f + 1 = (e + 1 + 1) * 2 ^ 52 + 0 := by omega
      have hdouble : (2 ^ 52 + 0) * 2 ^ (e + 1) = 2 ^ 53 * 2 ^ e := by ring
      rw [hnext, unitsAt_of_exponent (e + 1) (by norm_num), hdouble]
      exact Nat.mul_lt_mul_of_pos_right (by omega) hpos

/-- A significand of at most 53 bits, the leading one included where the scale is not zero, stands
for its number of units, also where it carries into the exponent. -/
lemma unitsAt_encoded {m s : Nat} (hm : m ≤ 2 ^ 53) (hs : 2 ^ 52 ≤ m ∨ s = 0) :
    unitsAt (s * 2 ^ 52 + m) = m * 2 ^ s := by
  rcases Nat.lt_or_ge m (2 ^ 52) with h | h
  · obtain rfl : s = 0 := hs.resolve_left (by omega)
    simp [unitsAt_of_lt h]
  rcases Nat.lt_or_ge m (2 ^ 53) with h' | h'
  · have hsplit : s * 2 ^ 52 + m = (s + 1) * 2 ^ 52 + (m - 2 ^ 52) := by omega
    rw [hsplit, unitsAt_of_exponent s (by omega), Nat.add_sub_of_le h]
  · obtain rfl : m = 2 ^ 53 := Nat.le_antisymm hm h'
    have hsplit : s * 2 ^ 52 + 2 ^ 53 = (s + 1 + 1) * 2 ^ 52 + 0 := by omega
    rw [hsplit, unitsAt_of_exponent (s + 1) (by norm_num)]
    ring

/-- **The grid of the reals.** The units of a real are a multiple of `2 ^ s`, unless they are too
few for a significand of 53 bits at that scale. -/
lemma two_pow_dvd_or_lt (m s : Nat) : 2 ^ s ∣ unitsAt m ∨ unitsAt m < 2 ^ (52 + s) := by
  obtain hm | ⟨e, f, hf, rfl⟩ := magnitude_cases m
  · right
    rw [unitsAt_of_lt hm]
    exact hm.trans_le (Nat.pow_le_pow_right (by norm_num) (by omega))
  · rw [unitsAt_of_exponent e hf]
    rcases Nat.lt_or_ge e s with he | he
    · right
      calc (2 ^ 52 + f) * 2 ^ e < 2 ^ 53 * 2 ^ e :=
            Nat.mul_lt_mul_of_pos_right (by omega) (Nat.two_pow_pos e)
        _ = 2 ^ (53 + e) := (Nat.pow_add 2 53 e).symm
        _ ≤ 2 ^ (52 + s) := Nat.pow_le_pow_right (by norm_num) (by omega)
    · exact .inl (Nat.dvd_mul_left_of_dvd (Nat.pow_dvd_pow 2 he) _)

/-! ### The order of all reals -/

/-- Two integers compare like two others if they are in the same order. -/
lemma compare_eq_compare_of_lt_iff {a b c d : Int} (hlt : a < b ↔ c < d) (hgt : b < a ↔ d < c) :
    compare a b = compare c d := by
  rcases lt_trichotomy a b with h | h | h
  · rw [compare_lt_iff_lt.mpr h, compare_lt_iff_lt.mpr (hlt.mp h)]
  · have h' : c = d := by omega
    rw [compare_eq_iff_eq.mpr h, compare_eq_iff_eq.mpr h']
  · rw [compare_gt_iff_gt.mpr h, compare_gt_iff_gt.mpr (hgt.mp h)]

lemma unitsAt_eq_zero_iff {m : Nat} : unitsAt m = 0 ↔ m = 0 :=
  unitsAt_strictMono.injective.eq_iff' (unitsAt_of_lt (Nat.two_pow_pos 52))

/-- **Reals are in the order of their units**, with the sign in front; this includes both zeros, the
infinities and the NaNs. -/
theorem compare_eq_compare_scaled (a b : Binary64) : compare a b = compare a.scaled b.scaled := by
  have hlt : ∀ {m n}, unitsAt m < unitsAt n ↔ m < n := unitsAt_strictMono.lt_iff_lt
  have hba := @hlt b.magnitude a.magnitude
  have hab := @hlt a.magnitude b.magnitude
  have ha := @unitsAt_eq_zero_iff a.magnitude
  have hb := @unitsAt_eq_zero_iff b.magnitude
  show compare a.orderKey b.orderKey = compare a.scaled b.scaled
  apply compare_eq_compare_of_lt_iff
  all_goals
    unfold orderKey scaled
    rw [units_eq_unitsAt, units_eq_unitsAt]
    split <;> split <;> omega

end Binary64

end BoundedLogic
