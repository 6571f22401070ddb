import BoundedLogic.Numeric.Bounds
import BoundedLogic.Proofs.Numeric.Units
import Mathlib.Tactic.NormNum

set_option relaxedAutoImplicit false
set_option autoImplicit false

/-!
# Integers among the reals

An integer is compared with a real through the real nearest to it. Rounding to the nearest real
never goes past another real, so as long as the rounded integer and the given real differ, they are
in the order of the integer and the real themselves. Where they are the same, the real is an
integer. If it is `2 ^ 63` no 64-bit integer is as large; any other one is cast back without loss,
and the two integers are compared. So the comparison is exact, whatever the size of the integer.

## Main results

* `BoundedLogic.Binary64.units_ofUnits` — the units of a rounded number.
* `BoundedLogic.Binary64.ofUnits_le`, `BoundedLogic.Binary64.le_ofUnits` — rounding does not go past
  a real.
* `BoundedLogic.Binary64.compareInt_eq_compare` — an integer and a real are in the order of their
  units.
-/

namespace BoundedLogic

/-! ### Rounded quotients -/

/-- Rounding a quotient does not go past a natural above it. -/
lemma roundDiv_le_of_le_mul {tie : Tie} {n d k : Nat} (hd : 0 < d) (h : n ≤ k * d) :
    roundDiv tie n d ≤ k := by
  have hhalf := roundDiv_mul_le tie n d hd
  by_contra hk
  have hmul := Nat.mul_le_mul_right d (Nat.succ_le_of_lt (Nat.lt_of_not_le hk))
  rw [Nat.succ_mul] at hmul
  omega

/-- Rounding a quotient does not go past a natural below it. -/
lemma le_roundDiv_of_mul_le {tie : Tie} {n d k : Nat} (hd : 0 < d) (h : k * d ≤ n) :
    k ≤ roundDiv tie n d := by
  have hhalf := le_roundDiv_mul tie n d hd
  by_contra hk
  have hmul := Nat.mul_le_mul_right d (Nat.succ_le_of_lt (Nat.lt_of_not_le hk))
  rw [Nat.succ_mul] at hmul
  omega

namespace Binary64

/-! ### The nearest real -/

/-- The word of a significand and its scale, where it is not too large for a finite real. -/
lemma toNat_bits_encode (m s : Nat) :
    (encode m s).bits.toNat = min (s * 2 ^ 52 + m) infiniteMagnitude := by
  have hinf : infiniteMagnitude < 2 ^ 64 := by norm_num [infiniteMagnitude]
  rw [encode, Nat.toUInt64_eq, UInt64.toNat_ofNat', Nat.mod_eq_of_lt (by omega), Nat.pow_eq]

lemma magnitude_encode {m s : Nat} (h : s * 2 ^ 52 + m ≤ infiniteMagnitude) :
    (encode m s).magnitude = s * 2 ^ 52 + m := by
  have hinf : infiniteMagnitude < 2 ^ 63 := by norm_num [infiniteMagnitude]
  rw [magnitude, toNat_bits_encode, Nat.min_eq_left h, Nat.pow_eq, Nat.mod_eq_of_lt (by omega)]

/-- What rounding makes of a number of units: the significand, and the power of two it counts. -/
lemma significand_bounds (n : Nat) :
    let s := n.log2 - 52
    roundDiv .toEven n (2 ^ s) ≤ 2 ^ 53 ∧ (2 ^ 52 ≤ roundDiv .toEven n (2 ^ s) ∨ s = 0) := by
  intro s
  have hpos : 0 < 2 ^ s := Nat.two_pow_pos s
  constructor
  · apply roundDiv_le_of_le_mul hpos
    calc n ≤ 2 ^ (n.log2 + 1) := Nat.lt_log2_self.le
      _ ≤ 2 ^ (53 + s) := Nat.pow_le_pow_right (by norm_num) (by omega)
      _ = 2 ^ 53 * 2 ^ s := Nat.pow_add 2 53 s
  · by_cases hs : s = 0
    · exact .inr hs
    · left
      apply le_roundDiv_of_mul_le hpos
      have hn : n ≠ 0 := by rintro rfl; exact hs rfl
      calc 2 ^ 52 * 2 ^ s = 2 ^ n.log2 := by rw [← Nat.pow_add]; congr 1; omega
        _ ≤ n := Nat.log2_self_le hn

/-- The units of a rounded number, if it is not too large for a finite real. -/
theorem units_ofUnits {n : Nat} (h : n.log2 ≤ 2000) :
    (ofUnits n 1).units = roundDiv .toEven n (2 ^ (n.log2 - 52)) * 2 ^ (n.log2 - 52) := by
  obtain ⟨hle, hge⟩ := significand_bounds n
  have hencode : ofUnits n 1 =
      encode (roundDiv .toEven n (2 ^ (n.log2 - 52))) (n.log2 - 52) := by
    simp only [ofUnits, Nat.div_one, Nat.one_mul, Nat.pow_eq]
  have hfinite : (n.log2 - 52) * 2 ^ 52 + roundDiv .toEven n (2 ^ (n.log2 - 52)) ≤
      infiniteMagnitude := by
    norm_num [infiniteMagnitude]
    omega
  rw [hencode, units_eq_unitsAt, magnitude_encode hfinite, unitsAt_encoded hle hge]

/-- Rounding does not go past a real above the number.

**Proof sketch.** A real that is at least the number is at least `2 ^ (52 + s)`, if `s` is the scale
of rounding, so it lies on the grid of that scale (`two_pow_dvd_or_lt`). -/
theorem ofUnits_le {n m : Nat} (hlog : n.log2 ≤ 2000) (h : n ≤ unitsAt m) :
    (ofUnits n 1).units ≤ unitsAt m := by
  rw [units_ofUnits hlog]
  generalize hs : n.log2 - 52 = s
  have hpos : 0 < 2 ^ s := Nat.two_pow_pos s
  rcases two_pow_dvd_or_lt m s with ⟨k, hk⟩ | hlt
  · rw [hk, Nat.mul_comm (2 ^ s)] at h ⊢
    exact Nat.mul_le_mul_right _ (roundDiv_le_of_le_mul hpos h)
  · by_cases hzero : s = 0
    · subst hzero
      have hexact := roundDiv_of_dvd .toEven Nat.one_pos (Nat.mod_one n)
      simpa [hexact] using h
    · have hn : n ≠ 0 := by rintro rfl; simp at hs; omega
      have hlow : 2 ^ (52 + s) ≤ n := by
        rw [show 52 + s = n.log2 by omega]
        exact Nat.log2_self_le hn
      omega

/-- Rounding does not go past a real below the number.

**Proof sketch.** The real lies on the grid of the scale of rounding, or it is less than every
rounded number of that scale. -/
theorem le_ofUnits {n m : Nat} (hlog : n.log2 ≤ 2000) (h : unitsAt m ≤ n) :
    unitsAt m ≤ (ofUnits n 1).units := by
  obtain ⟨-, hge⟩ := significand_bounds n
  rw [units_ofUnits hlog]
  generalize n.log2 - 52 = s at hge ⊢
  have hpos : 0 < 2 ^ s := Nat.two_pow_pos s
  rcases two_pow_dvd_or_lt m s with ⟨k, hk⟩ | hlt
  · rw [hk, Nat.mul_comm (2 ^ s)] at h ⊢
    exact Nat.mul_le_mul_right _ (le_roundDiv_of_mul_le hpos h)
  · rcases hge with hge | rfl
    · calc unitsAt m ≤ 2 ^ (52 + s) := hlt.le
        _ = 2 ^ 52 * 2 ^ s := Nat.pow_add 2 52 s
        _ ≤ _ := Nat.mul_le_mul_right _ hge
    · have hexact := roundDiv_of_dvd .toEven Nat.one_pos (Nat.mod_one n)
      simpa [hexact] using h

/-! ### Integers -/

/-- The number of units in one is a power of two. -/
lemma unitsPerOne_eq : unitsPerOne = 2 ^ 1074 := by
  unfold unitsPerOne
  generalize 1074 = p
  exact Nat.pow_eq

/-- The same without its exponent, which is too large to be computed with. -/
lemma exists_unitsPerOne_eq : ∃ p ≤ 1074, unitsPerOne = 2 ^ p :=
  ⟨1074, Nat.le_refl 1074, unitsPerOne_eq⟩

lemma unitsPerOne_pos : (0 : Int) < unitsPerOne := by
  obtain ⟨p, -, hone⟩ := exists_unitsPerOne_eq
  rw [hone]
  exact Int.natCast_pos.mpr (Nat.two_pow_pos p)

/-- The integers of 64 bits have a small number of units. -/
lemma mul_unitsPerOne_lt {n : Nat} (hn : n ≤ 2 ^ 63) : ∃ k ≤ 1200, n * unitsPerOne < 2 ^ k := by
  obtain ⟨p, hp, hone⟩ := exists_unitsPerOne_eq
  refine ⟨64 + p, by omega, ?_⟩
  calc n * unitsPerOne ≤ 2 ^ 63 * 2 ^ p := by rw [hone]; exact Nat.mul_le_mul_right _ hn
    _ = 2 ^ (63 + p) := (Nat.pow_add 2 63 p).symm
    _ < 2 ^ (64 + p) := Nat.pow_lt_pow_right (by norm_num) (by omega)

/-- A 64-bit integer is not too large to be rounded. -/
lemma log2_mul_unitsPerOne_le {n : Nat} (hn : n ≤ 2 ^ 63) : (n * unitsPerOne).log2 ≤ 2000 := by
  by_cases h : n * unitsPerOne = 0
  · rw [h]
    exact Nat.zero_le _
  · obtain ⟨k, hk, hlt⟩ := mul_unitsPerOne_lt hn
    have hlog := (Nat.log2_lt h).mpr hlt
    omega

/-- The infinities and the NaNs have more units than any 64-bit integer. -/
lemma mul_unitsPerOne_lt_of_infinite {n m : Nat} (hn : n ≤ 2 ^ 63) (hm : infiniteMagnitude ≤ m) :
    n * unitsPerOne < unitsAt m := by
  obtain ⟨k, hk, hlt⟩ := mul_unitsPerOne_lt hn
  obtain ⟨e, he, hinf⟩ : ∃ e ≥ 2046, infiniteMagnitude = (e + 1) * 2 ^ 52 + 0 :=
    ⟨2046, Nat.le_refl _, by norm_num [infiniteMagnitude]⟩
  calc n * unitsPerOne < 2 ^ k := hlt
    _ ≤ 2 ^ (52 + e) := Nat.pow_le_pow_right (by norm_num) (by omega)
    _ = (2 ^ 52 + 0) * 2 ^ e := Nat.pow_add 2 52 e
    _ = unitsAt infiniteMagnitude := by rw [hinf, unitsAt_of_exponent e (Nat.two_pow_pos 52)]
    _ ≤ unitsAt m := unitsAt_strictMono.monotone hm

/-- The real nearest to a natural is a natural.

**Proof sketch.** If a unit of the scale of rounding is at most one, the natural is not changed;
otherwise every multiple of it is a natural. -/
lemma unitsPerOne_dvd_units_ofNat {n : Nat} (hn : n ≤ 2 ^ 63) :
    unitsPerOne ∣ (ofNat n).units := by
  show unitsPerOne ∣ (ofUnits (n * unitsPerOne) 1).units
  rw [units_ofUnits (log2_mul_unitsPerOne_le hn)]
  generalize (n * unitsPerOne).log2 - 52 = s
  obtain ⟨p, -, hone⟩ := exists_unitsPerOne_eq
  rw [hone]
  rcases Nat.le_total p s with hs | hs
  · exact Nat.dvd_mul_left_of_dvd (Nat.pow_dvd_pow 2 hs) _
  · have hgrid : 2 ^ s ∣ n * 2 ^ p := Nat.dvd_mul_left_of_dvd (Nat.pow_dvd_pow 2 hs) n
    rw [roundDiv_of_dvd .toEven (Nat.two_pow_pos s) (Nat.mod_eq_zero_of_dvd hgrid),
      Nat.div_mul_cancel hgrid]
    exact Nat.dvd_mul_left _ _

lemma bits_ofNat_lt (n : Nat) : (ofNat n).bits.toNat < 2 ^ 63 := by
  have hinf : infiniteMagnitude < 2 ^ 63 := by norm_num [infiniteMagnitude]
  rw [ofNat, ofRatio, ofUnits, toNat_bits_encode]
  omega

/-- Turning over the sign bit leaves the magnitude alone. -/
lemma magnitude_neg (r : Binary64) : r.neg.magnitude = r.magnitude := by
  show (r.bits ^^^ 0x8000000000000000).toNat % 2 ^ 63 = r.bits.toNat % 2 ^ 63
  rw [UInt64.toNat_xor, Nat.xor_mod_two_pow]
  exact Nat.xor_zero _

/-- Turning over the sign bit of a real that has it unset sets it. -/
lemma negative_neg {r : Binary64} (h : r.bits.toNat < 2 ^ 63) : r.neg.negative = true := by
  have hdiv : (r.bits ^^^ 0x8000000000000000).toNat / 2 ^ 63 = 1 := by
    rw [UInt64.toNat_xor, Nat.xor_div_two_pow, Nat.div_eq_of_lt h]
    rfl
  refine decide_eq_true ?_
  show 2 ^ 63 ≤ (r.bits ^^^ 0x8000000000000000).toNat
  omega

/-- The signed units of a real. -/
lemma scaled_eq (r : Binary64) :
    r.scaled = if r.negative then -(unitsAt r.magnitude : Int) else unitsAt r.magnitude := rfl

/-- The signed units of the real nearest to an integer. -/
lemma scaled_ofInt (i : Int) :
    (ofInt i).scaled =
      if i < 0 then -((ofNat i.natAbs).units : Int) else (ofNat i.natAbs).units := by
  unfold ofInt
  split
  · have hneg := negative_neg (bits_ofNat_lt i.natAbs)
    rw [scaled, if_pos hneg, units_eq_unitsAt, magnitude_neg, ← units_eq_unitsAt]
  · have hpos : (ofNat i.natAbs).negative = false :=
      decide_eq_false (Nat.not_le_of_lt (bits_ofNat_lt i.natAbs))
    rw [scaled, hpos, if_neg Bool.false_ne_true]

/-- The signed units of an integer. -/
lemma mul_unitsPerOne_eq (i : Int) :
    i * unitsPerOne =
      if i < 0 then -((i.natAbs * unitsPerOne : Nat) : Int)
      else (i.natAbs * unitsPerOne : Nat) := by
  split
  · rw [Int.natCast_mul, Int.ofNat_natAbs_of_nonpos (by omega), Int.neg_mul, Int.neg_neg]
  · rw [Int.natCast_mul, Int.natAbs_of_nonneg (by omega)]

lemma natAbs_toInt_le (i : Int64) : i.toInt.natAbs ≤ 2 ^ 63 := by
  have hlow := i.le_toInt
  have hhigh := i.toInt_lt
  omega

/-- The integer part of a whole number of ones. -/
lemma truncate_mul_unitsPerOne {r : Binary64} (h : (unitsPerOne : Int) ∣ r.scaled) :
    r.truncate * unitsPerOne = r.scaled :=
  Int.tdiv_mul_cancel h

/-- Integers are in the order of their units. -/
lemma compare_mul_unitsPerOne (i j : Int) :
    compare i j = compare (i * unitsPerOne) (j * unitsPerOne) :=
  compare_eq_compare_of_lt_iff (Int.mul_lt_mul_right unitsPerOne_pos).symm
    (Int.mul_lt_mul_right unitsPerOne_pos).symm

/-- The units of the least real above the 64-bit integers. -/
lemma unitsAt_aboveInt64 : unitsAt aboveInt64.magnitude = 2 ^ 63 * unitsPerOne := by
  -- the exponents are too large to be computed with, so they are named
  obtain ⟨p, hone, hmagnitude⟩ :
      ∃ p, unitsPerOne = 2 ^ p ∧ aboveInt64.magnitude = (p + 11 + 1) * 2 ^ 52 + 0 :=
    ⟨1074, unitsPerOne_eq, by decide⟩
  rw [hmagnitude, unitsAt_of_exponent (p + 11) (Nat.two_pow_pos 52), hone]
  ring

lemma scaled_aboveInt64 : aboveInt64.scaled = ((2 ^ 63 * unitsPerOne : Nat) : Int) := by
  have hpositive : aboveInt64.negative = false := by decide
  rw [scaled_eq, hpositive, if_neg Bool.false_ne_true, unitsAt_aboveInt64]

/-- A natural whose nearest real has fewer units than another real has fewer units, too. -/
lemma mul_unitsPerOne_lt_of_units_lt {n m : Nat} (hn : n ≤ 2 ^ 63)
    (h : (ofNat n).units < unitsAt m) : n * unitsPerOne < unitsAt m := by
  by_contra hle
  have hround := le_ofUnits (log2_mul_unitsPerOne_le hn) (Nat.le_of_not_lt hle)
  exact absurd h (Nat.not_lt.mpr hround)

/-- A natural whose nearest real has more units than another real has more units, too. -/
lemma lt_mul_unitsPerOne_of_lt_units {n m : Nat} (hn : n ≤ 2 ^ 63)
    (h : unitsAt m < (ofNat n).units) : unitsAt m < n * unitsPerOne := by
  by_contra hle
  have hround := ofUnits_le (log2_mul_unitsPerOne_le hn) (Nat.le_of_not_lt hle)
  exact absurd h (Nat.not_lt.mpr hround)

/-- Rounding keeps a 64-bit integer on its side of every real that it does not hit. -/
lemma compare_scaled_of_ne {i : Int64} {r : Binary64} (h : (ofInt i.toInt).scaled ≠ r.scaled) :
    compare (ofInt i.toInt).scaled r.scaled = compare (i.toInt * unitsPerOne) r.scaled := by
  have hn := natAbs_toInt_le i
  have hbelow := @mul_unitsPerOne_lt_of_units_lt _ r.magnitude hn
  have habove := @lt_mul_unitsPerOne_of_lt_units _ r.magnitude hn
  have hint := mul_unitsPerOne_eq i.toInt
  have hround := scaled_ofInt i.toInt
  have hreal := scaled_eq r
  rcases lt_or_gt_of_ne h with h | h
  · have hlt : i.toInt * unitsPerOne < r.scaled := by
      split at hround <;> split at hreal <;> omega
    rw [compare_lt_iff_lt.mpr h, compare_lt_iff_lt.mpr hlt]
  · have hgt : r.scaled < i.toInt * unitsPerOne := by
      split at hround <;> split at hreal <;> omega
    rw [compare_gt_iff_gt.mpr h, compare_gt_iff_gt.mpr hgt]

/-- A real that a 64-bit integer is rounded to is a whole number of ones. -/
lemma unitsPerOne_dvd_scaled_ofInt (i : Int64) : (unitsPerOne : Int) ∣ (ofInt i.toInt).scaled := by
  have hdvd := unitsPerOne_dvd_units_ofNat (natAbs_toInt_le i)
  rw [scaled_ofInt]
  split
  · exact Int.dvd_neg.mpr (Int.natCast_dvd_natCast.mpr hdvd)
  · exact Int.natCast_dvd_natCast.mpr hdvd

/-- An infinity or a NaN is on its side of all 64-bit integers. -/
lemma compare_scaled_of_infinite (i : Int64) {r : Binary64} (h : infiniteMagnitude ≤ r.magnitude) :
    compare (i.toInt * unitsPerOne) r.scaled = if r.negative then .gt else .lt := by
  have hbig := mul_unitsPerOne_lt_of_infinite (natAbs_toInt_le i) h
  have hint := mul_unitsPerOne_eq i.toInt
  rw [scaled_eq]
  split
  · rw [compare_gt_iff_gt]
    split at hint <;> omega
  · rw [compare_lt_iff_lt]
    split at hint <;> omega

/-- Rounding a 64-bit integer does not go below the least one of them. -/
lemma neg_le_scaled_ofInt (i : Int64) :
    -((2 ^ 63 * unitsPerOne : Nat) : Int) ≤ (ofInt i.toInt).scaled := by
  have hn := natAbs_toInt_le i
  have hround : (ofNat i.toInt.natAbs).units ≤ unitsAt aboveInt64.magnitude := by
    refine ofUnits_le (log2_mul_unitsPerOne_le hn) ?_
    rw [unitsAt_aboveInt64]
    exact Nat.mul_le_mul_right _ hn
  rw [unitsAt_aboveInt64] at hround
  rw [scaled_ofInt]
  split <;> omega

/-- A real whose integer part is one of 64 bits is cast to it. -/
lemma toInt_toInt64 {r : Binary64} (hnan : r.isNaN = false) (h : fitsInt64 r.truncate = true) :
    r.toInt64.toInt = r.truncate := by
  obtain ⟨hlow, hhigh⟩ := of_decide_eq_true h
  rw [toInt64, hnan, if_neg Bool.false_ne_true, Int.min_eq_left hhigh, Int.max_eq_right hlow]
  exact toInt_ofInt_of_fitsInt64 h

/-- **On a tie**, where a 64-bit integer is rounded to the real, the integer is in the order of the
units with what the real is cast to; or the real is above all integers.

**Proof sketch.** The real is a whole number of ones. Below `2 ^ 63`, and as rounding does not go
below `- 2 ^ 63`, it is one of 64 bits, so the cast is exact. There is one more real that a 64-bit
integer is rounded to, `2 ^ 63` itself, and it is above the integer. -/
lemma compare_of_tie {i : Int64} {r : Binary64} (hnan : r.isNaN = false)
    (h : (ofInt i.toInt).scaled = r.scaled) :
    (if (compare aboveInt64 r).isLE then .lt else compare i.toInt r.toInt64.toInt) =
      compare (i.toInt * unitsPerOne) r.scaled := by
  have hpos := unitsPerOne_pos
  have hscaled := scaled_aboveInt64
  rw [compare_eq_compare_scaled]
  by_cases hr : aboveInt64.scaled ≤ r.scaled
  · have hi : i.toInt * unitsPerOne < 2 ^ 63 * unitsPerOne :=
      Int.mul_lt_mul_of_pos_right i.toInt_lt hpos
    rw [if_pos (Int.isLE_compare.mpr hr), eq_comm, compare_lt_iff_lt]
    omega
  · have hwhole := truncate_mul_unitsPerOne (h ▸ unitsPerOne_dvd_scaled_ofInt i)
    have hlow := neg_le_scaled_ofInt i
    have hfits : fitsInt64 r.truncate = true := by
      have hge : -2 ^ 63 ≤ r.truncate :=
        Int.le_of_mul_le_mul_right (by rw [hwhole]; omega) hpos
      have hlt : r.truncate < 2 ^ 63 :=
        Int.lt_of_mul_lt_mul_right (by rw [hwhole]; omega) hpos.le
      exact decide_eq_true ⟨hge, Int.le_of_lt_add_one hlt⟩
    rw [if_neg (mt Int.isLE_compare.mp hr), toInt_toInt64 hnan hfits, compare_mul_unitsPerOne,
      hwhole]

/-- **Integers and reals** are in the order of their signed units; with the units that belong to
their magnitudes this includes the infinities and the NaNs.

**Proof sketch.** A NaN has more units than any 64-bit integer, so its sign decides. Otherwise, if
the rounded integer is not the real, the integer is on the same side of it. If it is, the cast back
decides as the units do (`compare_of_tie`). -/
theorem compareInt_eq_compare (i : Int64) (r : Binary64) :
    compareInt i r = compare (i.toInt * unitsPerOne) r.scaled := by
  unfold compareInt
  split
  case isTrue hnan => exact (compare_scaled_of_infinite i (of_decide_eq_true hnan).le).symm
  case isFalse hnan =>
    rw [compare_eq_compare_scaled]
    by_cases h : (ofInt i.toInt).scaled = r.scaled
    · rw [compare_eq_iff_eq.mpr h]
      exact compare_of_tie (Bool.eq_false_iff.mpr hnan) h
    · rw [← compare_scaled_of_ne h]
      rcases lt_or_gt_of_ne h with h | h
      · rw [compare_lt_iff_lt.mpr h]
        rfl
      · rw [compare_gt_iff_gt.mpr h]
        rfl

/-- `2 ^ 53 + 1` is rounded to `2 ^ 53`, and is above it all the same. The largest integer is
rounded to `2 ^ 63`, and is below it. -/
example : compareInt 9007199254740993 ⟨0x4340000000000000⟩ = .gt ∧
    compareInt Int64.maxValue aboveInt64 = .lt := by decide +kernel

/-! ### Reals that are integers -/

/-- A real with the units of a 64-bit integer is that integer. -/
theorem isIntegral_of_scaled_eq {i : Int64} {r : Binary64}
    (h : i.toInt * unitsPerOne = r.scaled) : r.isIntegral = true ∧ r.truncate = i.toInt := by
  have hint := mul_unitsPerOne_eq i.toInt
  have hreal := scaled_eq r
  have hunits : unitsAt r.magnitude = i.toInt.natAbs * unitsPerOne := by
    split at hint <;> split at hreal <;> omega
  have hfinite : r.magnitude < infiniteMagnitude := by
    by_contra hm
    have hbig := mul_unitsPerOne_lt_of_infinite (natAbs_toInt_le i) (Nat.le_of_not_lt hm)
    omega
  constructor
  · rw [isIntegral, isFinite, decide_eq_true hfinite, units_eq_unitsAt, hunits, Nat.mul_mod_left]
    rfl
  · rw [truncate, ← h, Int.mul_tdiv_cancel _ unitsPerOne_pos.ne']

/-! ### Reals at one place of the order -/

lemma orderKey_eq_of_compare_eq {a b : Binary64} (h : compare a b = .eq) :
    a.orderKey = b.orderKey :=
  compare_eq_iff_eq.mp h

lemma scaled_eq_of_compare_eq {a b : Binary64} (h : compare a b = .eq) : a.scaled = b.scaled := by
  rw [compare_eq_compare_scaled] at h
  exact compare_eq_iff_eq.mp h

lemma magnitude_eq_of_compare_eq {a b : Binary64} (h : compare a b = .eq) :
    a.magnitude = b.magnitude := by
  have hkey := orderKey_eq_of_compare_eq h
  unfold orderKey at hkey
  split at hkey <;> split at hkey <;> omega

/-- A word is its magnitude and its sign bit. -/
lemma toNat_bits (r : Binary64) :
    r.bits.toNat = r.magnitude + if r.negative then 2 ^ 63 else 0 := by
  have hlt := r.bits.toNat_lt
  simp only [magnitude, negative, decide_eq_true_eq, Nat.pow_eq]
  split <;> omega

/-- Reals at one place of the order are the same, or both are zeros. -/
lemma unsignedZero_eq_of_compare_eq {a b : Binary64} (h : compare a b = .eq) :
    a.unsignedZero = b.unsignedZero := by
  have hmagnitude := magnitude_eq_of_compare_eq h
  unfold unsignedZero
  rw [hmagnitude]
  split
  case isTrue => rfl
  case isFalse hzero =>
    have hkey := orderKey_eq_of_compare_eq h
    have ha := toNat_bits a
    have hb := toNat_bits b
    unfold orderKey at hkey
    have hbits : a.bits.toNat = b.bits.toNat := by
      cases hna : a.negative <;> cases hnb : b.negative <;>
        simp only [hna, hnb, if_true, Bool.false_eq_true, if_false] at hkey ha hb <;> omega
    cases a
    cases b
    exact congrArg mk (UInt64.toNat_inj.mp hbits)

end Binary64

end BoundedLogic
