import BoundedLogic.Proofs.Value.HashEquality
import BoundedLogic.Proofs.ValueSet.Validity
import Mathlib.Data.List.Perm.Subperm

set_option relaxedAutoImplicit false
set_option autoImplicit false

/-!
# Sets are their members

Two valid sets are equal exactly if they contain the same values, in whatever order these were
added and whatever is known of their increasing order: their lists of sort keys are permutations of
each other, and in increasing order they are the same. So the operations on sets have the laws of
the operations on their members.

## Main results

* `BoundedLogic.ValueSet.IsValid.beq_iff_contains` — equal sets contain the same values.
* `BoundedLogic.ValueSet.IsValid.hashStream_eq` — equal sets are hashed by the same bytes.
* `BoundedLogic.ValueSet.IsValid.isSubset_iff` — the test for a subset, with its look at the sizes.
* `BoundedLogic.ValueSet.IsValid.contains_union` — the members of a union.
* `BoundedLogic.ValueSet.operations_extensional` — the laws of equality, inclusion and union.
-/

namespace BoundedLogic

namespace ValueSet

variable {s t u : ValueSet}

/-! ### Members by their sort keys -/

/-- The sort keys of the elements. -/
def keys (s : ValueSet) : List (List Int) :=
  s.elements.map Value.sortKey

lemma length_keys (s : ValueSet) : s.keys.length = s.size :=
  List.length_map _

lemma IsValid.nodup_keys (h : s.IsValid) : s.keys.Nodup :=
  Value.distinct_iff_nodup.mp h.distinct

lemma IsValid.contains_iff_mem (h : s.IsValid) (v : Value) :
    s.contains v = true ↔ v.sortKey ∈ s.keys := by
  rw [h.contains_iff, Value.among_iff_mem, keys]

/-- Inclusion of the keys is inclusion of the members. -/
lemma IsValid.keys_subset_iff (ht : t.IsValid) :
    s.keys ⊆ t.keys ↔ ∀ v ∈ s.elements, t.contains v = true := by
  constructor
  · intro h v hv
    exact (ht.contains_iff_mem v).mpr (h (List.mem_map_of_mem hv))
  · intro h k hk
    obtain ⟨v, hv, rfl⟩ := List.mem_map.mp hk
    exact (ht.contains_iff_mem v).mp (h v hv)

/-! ### Equality -/

/-- The increasing order of a valid set is its sorted list of elements, known or not. -/
lemma IsValid.sorted_eq_sortList (h : s.IsValid) : s.sorted = Value.sortList s.elements := by
  have hsort := Value.increasing_sortList h.distinct
  have hperm := h.sorted_perm.trans (Value.sortList_perm s.elements).symm
  refine hperm.eq_of_pairwise (fun v w _ _ hvw hwv => ?_) h.increasing_sorted hsort
  rw [Value.cmp_eq_swap, hvw] at hwv
  cases hwv

/-- A valid set compares like the value it is. -/
lemma IsValid.cmp_eq_cmp_toValue (hs : s.IsValid) (ht : t.IsValid) :
    s.cmp t = s.toValue.cmp t.toValue := by
  rw [cmp, hs.sorted_eq_sortList, ht.sorted_eq_sortList, toValue, toValue, Value.cmp_set]

/-- The order does not separate two sets if one has the keys of the other. -/
lemma IsValid.cmp_eq_eq_iff_perm (hs : s.IsValid) (ht : t.IsValid) :
    s.cmp t = .eq ↔ s.keys.Perm t.keys := by
  rw [hs.cmp_eq_cmp_toValue ht, ← Value.beq_iff_cmp_eq]
  exact Value.set_beq_set_iff

/-- Lists of values are equal if they have the same keys in the same places. -/
lemma beq_list_iff {as bs : List Value} :
    (as == bs) = true ↔ as.map Value.sortKey = bs.map Value.sortKey := by
  induction as generalizing bs with
  | nil => cases bs <;> simp
  | cons a as ih =>
    cases bs with
    | nil => simp
    | cons b bs => simp [ih, Value.beq_iff]

/-- **Sets are equal** if the order does not separate them: the sizes need not be compared. -/
theorem IsValid.beq_iff_cmp_eq (hs : s.IsValid) (ht : t.IsValid) :
    (s == t) = true ↔ s.cmp t = .eq := by
  have hsorted : (s.sorted == t.sorted) = true ↔ s.cmp t = .eq := by
    rw [beq_list_iff, cmp, Value.compareLex_cmp_eq_compare, Std.LawfulEqOrd.compare_eq_iff_eq]
  show (s.size == t.size && s.sorted == t.sorted) = true ↔ _
  rw [Bool.and_eq_true, hsorted, and_iff_right_iff_imp]
  intro h
  have hperm := (hs.cmp_eq_eq_iff_perm ht).mp h
  rw [beq_iff_eq, ← length_keys, ← length_keys, hperm.length_eq]

lemma IsValid.beq_iff_perm (hs : s.IsValid) (ht : t.IsValid) :
    (s == t) = true ↔ s.keys.Perm t.keys :=
  (hs.beq_iff_cmp_eq ht).trans (hs.cmp_eq_eq_iff_perm ht)

/-- Rearranging the elements leaves an equal set. -/
lemma IsValid.sort_beq (h : s.IsValid) : (s.sort == s) = true := by
  rw [h.sort.beq_iff_perm h, keys, elements_sort]
  exact h.sorted_perm.map Value.sortKey

/-! ### Hashing -/

lemma listedStreams_map_canonical (vs : List Value) :
    Value.listedStreams (vs.map Value.canonical) = vs.flatMap Value.hashStream := by
  induction vs with
  | nil => rfl
  | cons v vs ih => rw [List.map_cons, Value.listedStreams, ih, List.flatMap_cons, Value.hashStream]

/-- A valid set is hashed like the value it is, after the rank of that. -/
lemma IsValid.hashStream_toValue (h : s.IsValid) : s.toValue.hashStream = 8 :: s.hashStream := by
  have hlength : (Value.sortList s.elements).length = s.size :=
    (Value.sortList_perm s.elements).length_eq
  rw [toValue, Value.hashStream, Value.canonical, Value.canonicalList_eq_map,
    ← Value.map_canonical_sortList, Value.listedStream, List.length_map, hlength,
    listedStreams_map_canonical, hashStream, h.sorted_eq_sortList]

/-- **Equal sets are hashed by the same bytes**, in whatever order their elements were added. -/
theorem IsValid.hashStream_eq (hs : s.IsValid) (ht : t.IsValid) (h : (s == t) = true) :
    s.hashStream = t.hashStream := by
  rw [hs.beq_iff_cmp_eq ht, hs.cmp_eq_cmp_toValue ht] at h
  have hstream : s.toValue.hashStream = t.toValue.hashStream := Value.listedStream_eq h
  rw [hs.hashStream_toValue, ht.hashStream_toValue] at hstream
  exact List.tail_eq_of_cons_eq hstream

/-! ### Inclusion -/

/-- **Inclusion.** A set is a subset of another if all its elements are in it; a set with more
elements is never one.

**Proof sketch.** The keys of the smaller set are without repetitions and among those of the other,
so that there are no more of them. -/
theorem IsValid.isSubset_iff (hs : s.IsValid) (ht : t.IsValid) :
    s.isSubset t = true ↔ ∀ v ∈ s.elements, t.contains v = true := by
  rw [isSubset, Bool.and_eq_true, List.all_eq_true, decide_eq_true_eq, and_iff_right_iff_imp]
  intro h
  have hkeys := List.subperm_of_subset hs.nodup_keys (ht.keys_subset_iff.mpr h)
  rw [← length_keys, ← length_keys]
  exact hkeys.length_le

lemma IsValid.isSubset_iff_keys (hs : s.IsValid) (ht : t.IsValid) :
    s.isSubset t = true ↔ s.keys ⊆ t.keys :=
  (hs.isSubset_iff ht).trans ht.keys_subset_iff.symm

/-- Sets are equal if each is a subset of the other. -/
theorem IsValid.beq_iff_isSubset (hs : s.IsValid) (ht : t.IsValid) :
    (s == t) = true ↔ s.isSubset t = true ∧ t.isSubset s = true := by
  rw [hs.beq_iff_perm ht, hs.isSubset_iff_keys ht, ht.isSubset_iff_keys hs]
  constructor
  · intro h
    exact ⟨h.subset, h.symm.subset⟩
  · rintro ⟨hst, hts⟩
    exact (List.perm_ext_iff_of_nodup hs.nodup_keys ht.nodup_keys).mpr fun k =>
      ⟨fun hk => hst hk, fun hk => hts hk⟩

/-- A set is a subset of another if that contains all values that it contains. -/
lemma IsValid.isSubset_iff_contains (hs : s.IsValid) (ht : t.IsValid) :
    s.isSubset t = true ↔ ∀ v, s.contains v = true → t.contains v = true := by
  rw [hs.isSubset_iff ht]
  constructor
  · intro h v hv
    rw [ht.contains_iff_mem]
    exact ht.keys_subset_iff.mpr h ((hs.contains_iff_mem v).mp hv)
  · intro h v hv
    exact h v ((hs.contains_iff v).mpr ⟨v, hv, BEq.rfl⟩)

lemma IsValid.isSubset_refl (hs : s.IsValid) : s.isSubset s = true :=
  (hs.isSubset_iff_contains hs).mpr fun _ h => h

lemma IsValid.isSubset_trans (hs : s.IsValid) (ht : t.IsValid) (hu : u.IsValid)
    (hst : s.isSubset t = true) (htu : t.isSubset u = true) : s.isSubset u = true := by
  rw [hs.isSubset_iff_contains ht] at hst
  rw [ht.isSubset_iff_contains hu] at htu
  exact (hs.isSubset_iff_contains hu).mpr fun v hv => htu v (hst v hv)

/-- **Sets are equal** if they contain the same values. -/
theorem IsValid.beq_iff_contains (hs : s.IsValid) (ht : t.IsValid) :
    (s == t) = true ↔ ∀ v, s.contains v = t.contains v := by
  rw [hs.beq_iff_isSubset ht, hs.isSubset_iff_contains ht, ht.isSubset_iff_contains hs,
    ← forall_and]
  exact forall_congr' fun v => by rw [← iff_iff_implies_and_implies, ← Bool.eq_iff_iff]

/-! ### Union -/

/-- **The members of a union** are those of the two sets. -/
theorem IsValid.contains_union (hs : s.IsValid) (ht : t.IsValid) (v : Value) :
    (s.union t).contains v = (s.contains v || t.contains v) := by
  rw [Bool.eq_iff_iff, Bool.or_eq_true, (hs.union t).contains_iff, hs.contains_iff, ht.contains_iff]
  exact hs.among_elements_extend t.elements

lemma IsValid.union_comm (hs : s.IsValid) (ht : t.IsValid) :
    (s.union t == t.union s) = true :=
  ((hs.union t).beq_iff_contains (ht.union s)).mpr fun v => by
    rw [hs.contains_union ht, ht.contains_union hs, Bool.or_comm]

lemma IsValid.union_assoc (hs : s.IsValid) (ht : t.IsValid) (hu : u.IsValid) :
    ((s.union t).union u == s.union (t.union u)) = true :=
  (((hs.union t).union u).beq_iff_contains (hs.union (t.union u))).mpr fun v => by
    rw [(hs.union t).contains_union hu, hs.contains_union ht, hs.contains_union (ht.union u),
      ht.contains_union hu, Bool.or_assoc]

lemma IsValid.union_self (hs : s.IsValid) : (s.union s == s) = true :=
  ((hs.union s).beq_iff_contains hs).mpr fun v => by
    rw [hs.contains_union hs, Bool.or_self]

/-- **A union is the least set above** the two sets: it is in another set if both are. -/
theorem IsValid.union_isSubset_iff (hs : s.IsValid) (ht : t.IsValid) (hu : u.IsValid) :
    (s.union t).isSubset u = true ↔ s.isSubset u = true ∧ t.isSubset u = true := by
  rw [(hs.union t).isSubset_iff_contains hu, hs.isSubset_iff_contains hu,
    ht.isSubset_iff_contains hu, ← forall_and]
  exact forall_congr' fun v => by rw [hs.contains_union ht, Bool.or_eq_true, or_imp]

/-! ### The laws -/

/-- **Sets are extensional.** For valid sets, whatever is known of their increasing order:

* they are equal if they contain the same values, and if the order does not separate them;
* one is a subset of another if that contains all its elements, and inclusion is a partial order up
  to equality;
* a union is valid and contains the values of both sets, is commutative, associative and idempotent
  up to equality, and is the least set above both.

**Proof sketch.** All is read off the sort keys. Equality and inclusion are that of the keys, as
these are without repetitions, and the laws of union are those of the disjunction that says what it
contains. -/
theorem operations_extensional (hs : s.IsValid) (ht : t.IsValid) (hu : u.IsValid) :
    ((s == t) = true ↔ ∀ v, s.contains v = t.contains v) ∧
    ((s == t) = true ↔ s.cmp t = .eq) ∧
    (s.isSubset t = true ↔ ∀ v ∈ s.elements, t.contains v = true) ∧
    s.isSubset s = true ∧
    ((s == t) = true ↔ s.isSubset t = true ∧ t.isSubset s = true) ∧
    (s.isSubset t = true → t.isSubset u = true → s.isSubset u = true) ∧
    (s.union t).IsValid ∧
    (∀ v, (s.union t).contains v = (s.contains v || t.contains v)) ∧
    (s.union t == t.union s) = true ∧
    ((s.union t).union u == s.union (t.union u)) = true ∧
    (s.union s == s) = true ∧
    s.isSubset (s.union t) = true ∧
    t.isSubset (s.union t) = true ∧
    (s.isSubset u = true → t.isSubset u = true → (s.union t).isSubset u = true) := by
  have habove := (hs.union_isSubset_iff ht (hs.union t)).mp (hs.union t).isSubset_refl
  refine ⟨hs.beq_iff_contains ht, hs.beq_iff_cmp_eq ht, hs.isSubset_iff ht, hs.isSubset_refl,
    hs.beq_iff_isSubset ht, hs.isSubset_trans ht hu, hs.union t, hs.contains_union ht,
    hs.union_comm ht, hs.union_assoc ht hu, hs.union_self, habove.1, habove.2, ?_⟩
  intro hsu htu
  exact (hs.union_isSubset_iff ht hu).mpr ⟨hsu, htu⟩

/-- The laws at `{2, 1.0}` with its increasing order known, `{1, 2}` and `{3, 2, 1}`: the first two
contain the same values, and their union is a subset of the third. -/
theorem operations_extensional_oneTwo :
    let s := (ofList [.int 2, .real ⟨0x3ff0000000000000⟩]).withOrder
    let t := ofList [.int 1, .int 2]
    let u := ofList [.int 3, .int 2, .int 1]
    s.IsValid ∧ t.IsValid ∧ u.IsValid ∧
      (∀ v, s.contains v = t.contains v) ∧ s.union t == t.union s ∧ (s.union t).isSubset u := by
  intro s t u
  have hs : s.IsValid := (isValid_ofList _).withOrder
  have ht : t.IsValid := isValid_ofList _
  have hu : u.IsValid := isValid_ofList _
  have heq : (s == t) = true := (hs.beq_iff_perm ht).mpr (by decide +kernel)
  have hsu : s.isSubset u = true := by decide +kernel
  have htu : t.isSubset u = true := by decide +kernel
  obtain ⟨hcontains, -, -, -, -, -, -, -, hcomm, -, -, -, -, hleast⟩ :=
    operations_extensional hs ht hu
  exact ⟨hs, ht, hu, hcontains.mp heq, hcomm, hleast hsu htu⟩

end ValueSet

end BoundedLogic
