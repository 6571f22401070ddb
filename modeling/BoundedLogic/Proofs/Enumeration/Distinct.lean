import BoundedLogic.Checking.DefaultRange
import BoundedLogic.Proofs.Enumeration.Orderings
import BoundedLogic.Proofs.Enumeration.Subsets
import BoundedLogic.Proofs.Value.EqualParts
import BoundedLogic.Proofs.Value.WellFormed
import Mathlib.Data.List.Nodup

set_option relaxedAutoImplicit false
set_option autoImplicit false

/-!
# Enumerations without repetitions

Values that are enumerated are put into sets without being compared. They are pairwise unequal all
the same, each kind of them for a reason of its own: distinct items have no ordering twice; an
ordering tells which items it orders, and so the number that picked them; a tuple tells how it was
begun and continued; and integers of 64 bits that differ are unequal.

## Main definitions

* `BoundedLogic.ValueSet.pickedSubsets` — the subsets of a set.

## Main results

* `BoundedLogic.nodup_flatMap_orderings` — the orderings of all sublists of a list.
* `BoundedLogic.Domain.distinct_integersBetween` — a range of integers.
* `BoundedLogic.CheckerConfig.nodup_extendTuples` — tuples continued by the values of a range.
* `BoundedLogic.ValueSet.WellFormed.subsets`, `BoundedLogic.ValueSet.WellFormed.orderings` — the
  subsets of a well-formed set, and the sequences that order them.
* `BoundedLogic.subsets_never` — the subsets that are enumerated where nothing is asked.
-/

namespace BoundedLogic

/-! ### Orderings -/

section

universe u

variable {α : Type u} {xs : List α}

/-- **The orderings of all sublists** of distinct items are distinct.

**Proof sketch.** Those of one sublist are. An ordering of two sublists has the items of both, and
numbers that pick the same items are the same. -/
theorem nodup_flatMap_orderings (h : xs.Nodup) :
    ((List.range (2 ^ xs.length)).flatMap fun k => orderings (pickBits xs k)).Nodup := by
  rw [List.nodup_flatMap]
  refine ⟨fun k _ => nodup_orderings (h.sublist (pickBits_sublist xs k)), ?_⟩
  -- `l` orders what `j` picks and what `k` picks
  refine List.Pairwise.imp_of_mem (fun {j k} hj hk hne l hlj hlk => hne ?_) List.nodup_range
  have hperm := (mem_orderings_iff.mp hlj).symm.trans (mem_orderings_iff.mp hlk)
  exact eq_of_mem_pickBits_iff h (List.mem_range.mp hj) (List.mem_range.mp hk)
    fun _ => hperm.mem_iff

end

/-! ### Subsets -/

section

variable {α : Type} {xs : List α} {limit : Nat}

lemma subsetsFrom_never (xs : List α) (count k : Nat) (built : List (List α)) :
    (subsetsFrom (pure false : Id Bool) xs count k built).run =
      .ok (built.reverse ++ (List.range' k count).map (pickBits xs)) := by
  induction count generalizing k built with
  | zero =>
    rw [List.range'_zero, List.map_nil, List.append_nil]
    rfl
  | succ count ih =>
    rw [List.range'_succ, List.map_cons, ← List.singleton_append, ← List.append_assoc,
      ← List.reverse_cons, ← ih]
    rfl

/-- Where nothing is asked, only the limit and the word are in the way of an enumeration. -/
lemma subsets_never (xs : List α) (limit : Nat) :
    (subsets (pure false : Id Bool) xs limit).run =
      if limit < xs.length ∨ wordBits ≤ xs.length then .error (.capacityExceeded xs.length limit)
      else .ok ((List.range (2 ^ xs.length)).map (pickBits xs)) := by
  rw [subsets]
  split
  case isTrue => rfl
  case isFalse =>
    have hrun := subsetsFrom_never xs (2 ^ xs.length) 0 []
    rwa [List.reverse_nil, List.nil_append, ← List.range_eq_range'] at hrun

end

/-! ### Integers -/

namespace Domain

variable {lo hi : Int}

/-- The integers of a range that fits into 64 bits are those between its bounds. -/
theorem mem_integersBetween_iff (hlo : -2 ^ 63 ≤ lo) (hhi : hi < 2 ^ 63) {v : Value} :
    v ∈ integersBetween lo hi ↔ ∃ i : Int64, v = .int i ∧ lo ≤ i.toInt ∧ i.toInt ≤ hi := by
  simp only [integersBetween, List.mem_map, List.mem_range]
  constructor
  · rintro ⟨k, hk, rfl⟩
    refine ⟨_, rfl, ?_⟩
    rw [Int64.toInt_ofInt_of_le (by omega) (by omega)]
    omega
  · rintro ⟨i, rfl, hloi, hihi⟩
    refine ⟨(i.toInt - lo).toNat, by omega, ?_⟩
    rw [Int.toNat_of_nonneg (by omega), add_sub_cancel, Int64.ofInt_toInt]

/-- **A range of integers** that fits into 64 bits has none of them twice. -/
theorem distinct_integersBetween (hlo : -2 ^ 63 ≤ lo) (hhi : hi < 2 ^ 63) :
    Value.Distinct (integersBetween lo hi) := by
  rw [Value.Distinct, integersBetween, List.pairwise_map]
  refine List.Pairwise.imp_of_mem (fun {j k} hj hk hne => ?_) List.nodup_range
  rw [List.mem_range] at hj hk
  refine Bool.eq_false_of_not_eq_true fun heq => hne ?_
  have hint := congrArg Int64.toInt (Value.int_beq_int_iff.mp heq)
  rw [Int64.toInt_ofInt_of_le (by omega) (by omega),
    Int64.toInt_ofInt_of_le (by omega) (by omega)] at hint
  omega

end Domain

/-! ### Values made of lists -/

namespace Value

/-- Tuples are distinct if the keys of their items tell them apart. -/
lemma distinct_map_tuple_iff {ts : List (List Value)} :
    Distinct (ts.map .tuple) ↔ (ts.map (List.map sortKey)).Nodup := by
  simp only [Distinct, List.Nodup, List.pairwise_map, Bool.eq_false_iff, ne_eq, tuple_beq_tuple_iff]

/-- Sequences are distinct if the keys of their items tell them apart. -/
lemma distinct_map_seq_iff {ts : List (List Value)} :
    Distinct (ts.map .seq) ↔ (ts.map (List.map sortKey)).Nodup := by
  simp only [Distinct, List.Nodup, List.pairwise_map, Bool.eq_false_iff, ne_eq, seq_beq_seq_iff]

end Value

namespace ValueSet

variable {s : ValueSet}

/-- The subsets of a set, in the order of the numbers that pick them. -/
def pickedSubsets (s : ValueSet) : List (List Value) :=
  (List.range (2 ^ s.size)).map (pickBits s.elements)

lemma mem_pickedSubsets_iff {part : List Value} :
    part ∈ s.pickedSubsets ↔ ∃ k < 2 ^ s.size, pickBits s.elements k = part := by
  simp [pickedSubsets]

/-- The elements of a picked subset stand in the set, in the same order. -/
lemma sublist_of_mem_pickedSubsets {part : List Value} (h : part ∈ s.pickedSubsets) :
    part.Sublist s.elements := by
  obtain ⟨k, -, rfl⟩ := mem_pickedSubsets_iff.mp h
  exact pickBits_sublist _ k

/-- The elements of a picked subset, in any order, are elements of the set. -/
lemma subset_of_mem_orderings {part items : List Value} (hpart : part ∈ s.pickedSubsets)
    (hitems : items ∈ orderings part) : items ⊆ s.elements := fun _ hv =>
  (sublist_of_mem_pickedSubsets hpart).subset ((mem_orderings_iff.mp hitems).subset hv)

/-- **The subsets** of a valid set are pairwise unequal. -/
theorem IsValid.distinct_subsets (h : s.IsValid) : Value.Distinct (s.pickedSubsets.map .set) :=
  h.enumeratesSubsets.isValid_ofDistinct_map.distinct

/-- **The sequences** that order the subsets of a valid set are pairwise unequal. -/
theorem IsValid.distinct_orderings (h : s.IsValid) :
    Value.Distinct ((s.pickedSubsets.flatMap orderings).map .seq) := by
  have hkeys := nodup_flatMap_orderings h.nodup_keys
  rw [length_keys] at hkeys
  rw [Value.distinct_map_seq_iff, pickedSubsets, List.map_flatMap, List.flatMap_map]
  simpa only [← orderings_map, ← pickBits_map, keys] using hkeys

/-- The subsets of a well-formed set are well-formed, and so is the set of them. -/
theorem WellFormed.subsets (h : s.WellFormed) :
    (ofDistinct (s.pickedSubsets.map .set)).WellFormed := by
  refine ⟨isValid_ofDistinct h.isValid.distinct_subsets, ?_⟩
  refine List.forall_mem_map.mpr fun part hpart => ?_
  have hsublist := sublist_of_mem_pickedSubsets hpart
  exact Value.wellFormed_set_iff.mpr
    ⟨h.isValid.distinct.sublist hsublist, fun v hv => h.elements v (hsublist.subset hv)⟩

/-- The sequences that order the subsets of a well-formed set are well-formed. -/
theorem WellFormed.orderings (h : s.WellFormed) :
    (ofDistinct ((s.pickedSubsets.flatMap orderings).map .seq)).WellFormed := by
  refine ⟨isValid_ofDistinct h.isValid.distinct_orderings, ?_⟩
  refine List.forall_mem_map.mpr fun items hitems => ?_
  obtain ⟨part, hpart, hitems⟩ := List.mem_flatMap.mp hitems
  exact Value.wellFormed_seq_iff.mpr fun v hv =>
    h.elements v (subset_of_mem_orderings hpart hitems hv)

end ValueSet

namespace CheckerConfig

/-- **Tuples continued** by the values of a range are told apart by the keys of their items, if they
are so before. -/
theorem nodup_extendTuples {tuples : List (List Value)} {range : ValueSet}
    (htuples : (tuples.map (List.map Value.sortKey)).Nodup) (hrange : range.IsValid) :
    ((extendTuples tuples range).map (List.map Value.sortKey)).Nodup := by
  have hkeys : (extendTuples tuples range).map (List.map Value.sortKey) =
      (tuples.map (List.map Value.sortKey)).flatMap fun ks =>
        range.keys.map fun k => ks ++ [k] := by
    simp only [extendTuples, List.map_flatMap, List.flatMap_map, List.map_map, Function.comp_def,
      List.map_append, List.map_cons, List.map_nil, ValueSet.keys]
  rw [hkeys, List.nodup_flatMap]
  constructor
  · intro ks _
    refine hrange.nodup_keys.map fun k l hkl => ?_
    exact List.singleton_inj.mp (List.append_cancel_left hkl)
  · refine htuples.imp fun {ks ls} hne l hk hl => ?_
    obtain ⟨k, -, rfl⟩ := List.mem_map.mp hk
    obtain ⟨k', -, heq⟩ := List.mem_map.mp hl
    exact hne (List.append_inj_left' heq rfl).symm

end CheckerConfig

end BoundedLogic
