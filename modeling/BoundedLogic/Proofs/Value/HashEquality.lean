import BoundedLogic.Proofs.Value.TotalOrder
import BoundedLogic.Value.HashStream

set_option relaxedAutoImplicit false
set_option autoImplicit false

/-!
# Equal values are hashed alike

What a value is hashed by depends on it only up to equality. An integer and the real of the same
number are streamed as the integer; lists that compare equal have as many parts, and these are
equal in turn; and a set is streamed in increasing order, so that the order in which its elements
were added does not matter.

## Main results

* `BoundedLogic.Value.listedStream_eq` — values that compare equal as they are listed have equal
  streams.
* `BoundedLogic.Value.hashStream_eq_of_beq` — equal values are hashed by the same bytes.
-/

namespace BoundedLogic

/-! ### Numbers -/

/-- Reals at one place of the order have one stream. -/
lemma HashStream.real_eq_of_compare {a b : Binary64} (h : compare a b = .eq) :
    HashStream.real a = HashStream.real b := by
  have hmagnitude := Binary64.magnitude_eq_of_compare_eq h
  have hintegral : a.isIntegral = b.isIntegral := by
    simp only [Binary64.isIntegral, Binary64.isFinite, Binary64.units_eq_unitsAt, hmagnitude]
  rw [real, real, hintegral, Binary64.truncate, Binary64.truncate,
    Binary64.scaled_eq_of_compare_eq h, Binary64.unsignedZero_eq_of_compare_eq h]

/-- An integer and the real of the same number have one stream. -/
lemma HashStream.real_eq_word_of_compareInt {i : Int64} {r : Binary64}
    (h : Binary64.compareInt i r = .eq) : HashStream.real r = HashStream.word i.toUInt64 := by
  rw [Binary64.compareInt_eq_compare] at h
  obtain ⟨hintegral, htrunc⟩ := Binary64.isIntegral_of_scaled_eq (compare_eq_iff_eq.mp h)
  rw [real, hintegral, htrunc, if_pos ⟨rfl, fitsInt64_toInt i⟩, Int64.ofInt_toInt]

namespace Value

/-- Values that are not separated have one rank. -/
lemma rank_eq_of_compareListed {a b : Value} (h : compareListed a b = .eq) :
    a.kind.rank = b.kind.rank := by
  by_contra hne
  rw [compareListed_of_rank_ne hne] at h
  exact hne (compare_eq_iff_eq.mp h)

/-- Texts that are not separated are the same. -/
lemma eq_of_compare_string {m n : String} (h : compare m n = .eq) : m = n :=
  Std.LawfulEqOrd.eq_of_compare h

mutual

/-- **Values that compare equal** as they are listed have equal streams.

**Proof sketch.** Such values have one rank. The parts of their contents compare equal one by one,
and there are as many of them on both sides. -/
theorem listedStream_eq {a b : Value} (h : compareListed a b = .eq) :
    a.listedStream = b.listedStream := by
  match a, b, rank_eq_of_compareListed h with
  | .nil, .nil, _ => rfl
  | .bool a, .bool b, _ =>
    rw [compareListed] at h
    rw [listedStream, listedStream, Std.LawfulEqOrd.eq_of_compare h]
  | .int a, .int b, _ =>
    rw [compareListed] at h
    rw [listedStream, listedStream, Std.LawfulEqOrd.eq_of_compare h]
  | .real a, .real b, _ =>
    rw [compareListed] at h
    rw [listedStream, listedStream, HashStream.real_eq_of_compare h]
  | .int a, .real b, _ =>
    rw [compareListed] at h
    rw [listedStream, listedStream, HashStream.real_eq_word_of_compareInt h]
  | .real a, .int b, _ =>
    rw [compareListed, Ordering.swap_eq_eq] at h
    rw [listedStream, listedStream, HashStream.real_eq_word_of_compareInt h]
  | .char a, .char b, _ =>
    rw [compareListed] at h
    rw [listedStream, listedStream, Std.LawfulEqOrd.eq_of_compare h]
  | .quote a, .quote b, _ =>
    rw [compareListed] at h
    rw [listedStream, listedStream, eq_of_compare_string h]
  | .token a, .token b, _ =>
    rw [compareListed] at h
    rw [listedStream, listedStream, listedStream_eq h]
  | .tuple as, .tuple bs, _ =>
    rw [compareListed] at h
    obtain ⟨hlength, hstreams⟩ := listedStreams_eq h
    rw [listedStream, listedStream, hlength, hstreams]
  | .record m as, .record n bs, _ =>
    rw [compareListed, Ordering.then_eq_eq] at h
    obtain ⟨hlength, hstreams⟩ := fieldStreams_eq h.2
    rw [listedStream, listedStream, eq_of_compare_string h.1, hlength, hstreams]
  | .set as, .set bs, _ =>
    rw [compareListed] at h
    obtain ⟨hlength, hstreams⟩ := listedStreams_eq h
    rw [listedStream, listedStream, hlength, hstreams]
  | .seq as, .seq bs, _ =>
    rw [compareListed] at h
    obtain ⟨hlength, hstreams⟩ := listedStreams_eq h
    rw [listedStream, listedStream, hlength, hstreams]
  | .map as, .map bs, _ =>
    rw [compareListed] at h
    obtain ⟨hlength, hstreams⟩ := entryStreams_eq h
    rw [listedStream, listedStream, hlength, hstreams]
  | .function m k, .function n l, _ =>
    rw [compareListed, Ordering.then_eq_eq] at h
    rw [listedStream, listedStream, eq_of_compare_string h.1, Std.LawfulEqOrd.eq_of_compare h.2]

/-- Lists of values that compare equal are of one length and have equal streams. -/
theorem listedStreams_eq {as bs : List Value} (h : compareLists as bs = .eq) :
    as.length = bs.length ∧ listedStreams as = listedStreams bs := by
  match as, bs with
  | [], [] => exact ⟨rfl, rfl⟩
  | [], _ :: _ => simp [compareLists] at h
  | _ :: _, [] => simp [compareLists] at h
  | a :: as, b :: bs =>
    rw [compareLists, Ordering.then_eq_eq] at h
    obtain ⟨hlength, hstreams⟩ := listedStreams_eq h.2
    refine ⟨congrArg Nat.succ hlength, ?_⟩
    rw [listedStreams, listedStreams, listedStream_eq h.1, hstreams]

/-- Lists of fields that compare equal are of one length and have equal streams. -/
theorem fieldStreams_eq {as bs : List (String × Value)} (h : compareFields as bs = .eq) :
    as.length = bs.length ∧ fieldStreams as = fieldStreams bs := by
  match as, bs with
  | [], [] => exact ⟨rfl, rfl⟩
  | [], _ :: _ => simp [compareFields] at h
  | _ :: _, [] => simp [compareFields] at h
  | (m, a) :: as, (n, b) :: bs =>
    rw [compareFields, Ordering.then_eq_eq, Ordering.then_eq_eq] at h
    obtain ⟨⟨hname, hvalue⟩, hrest⟩ := h
    obtain ⟨hlength, hstreams⟩ := fieldStreams_eq hrest
    refine ⟨congrArg Nat.succ hlength, ?_⟩
    rw [fieldStreams, fieldStreams, eq_of_compare_string hname, listedStream_eq hvalue, hstreams]

/-- Lists of entries that compare equal are of one length and have equal streams. -/
theorem entryStreams_eq {as bs : List (Value × Value)} (h : compareEntries as bs = .eq) :
    as.length = bs.length ∧ entryStreams as = entryStreams bs := by
  match as, bs with
  | [], [] => exact ⟨rfl, rfl⟩
  | [], _ :: _ => simp [compareEntries] at h
  | _ :: _, [] => simp [compareEntries] at h
  | (k, a) :: as, (l, b) :: bs =>
    rw [compareEntries, Ordering.then_eq_eq, Ordering.then_eq_eq] at h
    obtain ⟨⟨hkey, hvalue⟩, hrest⟩ := h
    obtain ⟨hlength, hstreams⟩ := entryStreams_eq hrest
    refine ⟨congrArg Nat.succ hlength, ?_⟩
    rw [entryStreams, entryStreams, listedStream_eq hkey, listedStream_eq hvalue, hstreams]

end

/-- **Equal values are hashed by the same bytes**, whatever their depth: an integer and a real that
are one number, both zeros, and sets whose elements were added in different orders included. -/
theorem hashStream_eq_of_beq {a b : Value} (h : (a == b) = true) : a.hashStream = b.hashStream :=
  listedStream_eq (beq_iff_cmp_eq.mp h)

/-- A set of a tuple with `1` and `-0.0` and a map from `1`, and the same set in another order, with
`1.0` and `0` in the tuple and `1.0` in the map. -/
theorem hashStream_eq_of_beq_mixedSets :
    let a := set [tuple [int 1, real ⟨0x8000000000000000⟩], map [(int 1, char 'x')]]
    let b := set [map [(real ⟨0x3ff0000000000000⟩, char 'x')],
      tuple [real ⟨0x3ff0000000000000⟩, int 0]]
    (a == b) = true ∧ a.hashStream = b.hashStream := by
  intro a b
  have h : (a == b) = true := set_beq_set_iff.mpr (by decide +kernel)
  exact ⟨h, hashStream_eq_of_beq h⟩

end Value

end BoundedLogic
