set_option relaxedAutoImplicit false
set_option autoImplicit false

/-!
# Integers of 64 bits

## Main definitions

* `BoundedLogic.fitsInt64` — is an integer one of 64 bits?

## Main results

* `BoundedLogic.fitsInt64_toInt`, `BoundedLogic.toInt_ofInt_of_fitsInt64` — these integers are those
  that a word of 64 bits holds.
-/

namespace BoundedLogic

/-- Is an integer one of 64 bits? -/
def fitsInt64 (i : Int) : Bool :=
  decide (Int64.minValue.toInt ≤ i ∧ i ≤ Int64.maxValue.toInt)

/-- What a word of 64 bits holds fits. -/
theorem fitsInt64_toInt (i : Int64) : fitsInt64 i.toInt = true :=
  decide_eq_true ⟨i.minValue_le_toInt, i.toInt_le⟩

/-- What fits is kept by a word of 64 bits. -/
theorem toInt_ofInt_of_fitsInt64 {i : Int} (h : fitsInt64 i = true) : (Int64.ofInt i).toInt = i :=
  have ⟨lo, hi⟩ := of_decide_eq_true h
  Int64.toInt_ofInt_of_le lo (Int.lt_add_one_of_le hi)

end BoundedLogic
