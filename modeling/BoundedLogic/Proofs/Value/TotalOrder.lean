import BoundedLogic.Proofs.Value.SortKey

set_option relaxedAutoImplicit false
set_option autoImplicit false

/-!
# The order of values is total

Values compare like lists of integers, their sort keys, so their order has all laws of a total order
but one: values that it does not separate can differ, such as `1` and `1.0`. They are the equal
values, and equality is an equivalence.

The order was defined by arranging both values, sets inside sets first, and comparing them as they
are then listed. It is also the order that one would write down part by part: tuples, sequences,
fields and entries are compared from left to right, and a set through its elements in increasing
order, in this same order.

## Main results

* `BoundedLogic.Value.cmp_total_order` — the laws of the order and of equality.
* `BoundedLogic.Value.cmp_set` — sets compare like their elements in increasing order; the other
  kinds have lemmas of the same form.
* `BoundedLogic.Value.pairwise_sortList`, `BoundedLogic.Value.sortList_perm` — a list of values put
  in increasing order.
-/

namespace BoundedLogic

namespace Value

/-! ### The laws of the order -/

/-- The order does not separate two values if they have the same sort key. -/
lemma cmp_eq_eq_iff {a b : Value} : a.cmp b = .eq ↔ a.sortKey = b.sortKey := by
  rw [cmp_eq_compare_sortKey]
  exact Std.LawfulEqOrd.compare_eq_iff_eq

/-- Values are equal if the order does not separate them. -/
lemma beq_iff_cmp_eq {a b : Value} : (a == b) = true ↔ a.cmp b = .eq := by
  show (a.cmp b == .eq) = true ↔ _
  rw [beq_iff_eq]

/-- Values are equal if they have the same sort key. -/
lemma beq_iff {a b : Value} : (a == b) = true ↔ a.sortKey = b.sortKey :=
  beq_iff_cmp_eq.trans cmp_eq_eq_iff

/-- Values that may be missing are equal if both are missing or they have the same sort key. -/
lemma option_beq_iff {a b : Option Value} : (a == b) = true ↔ a.map sortKey = b.map sortKey := by
  cases a <;> cases b <;> simp [beq_iff]

/-- No value is equal to both of two values that the order separates. -/
lemma not_beq_of_cmp_ne {a b c : Value} (h : a.cmp b ≠ .eq) (hb : (b == c) = true) :
    ¬ (a == c) = true := by
  intro ha
  exact h (cmp_eq_eq_iff.mpr ((beq_iff.mp ha).trans (beq_iff.mp hb).symm))

lemma beq_eq_false_iff {a b : Value} : (a == b) = false ↔ a.sortKey ≠ b.sortKey := by
  rw [Ne, ← beq_iff, Bool.not_eq_true]

instance : Std.TransCmp cmp where
  eq_swap := by
    intro a b
    rw [cmp_eq_compare_sortKey, cmp_eq_compare_sortKey]
    exact Std.OrientedOrd.eq_swap
  isLE_trans := by
    intro a b c hab hbc
    rw [cmp_eq_compare_sortKey] at hab hbc ⊢
    exact Std.TransOrd.isLE_trans hab hbc

/-- The order the other way round. -/
lemma cmp_eq_swap (a b : Value) : b.cmp a = (a.cmp b).swap :=
  Std.OrientedCmp.eq_swap

/-- Of two values one comes no later than the other. -/
lemma cmp_isLE_or (a b : Value) : ((a.cmp b).isLE || (b.cmp a).isLE) = true := by
  rw [cmp_eq_swap a b]
  cases a.cmp b <;> rfl

instance : EquivBEq Value where
  rfl := beq_iff.mpr rfl
  symm h := beq_iff.mpr (beq_iff.mp h).symm
  trans h h' := beq_iff.mpr ((beq_iff.mp h).trans (beq_iff.mp h'))

/-- Equality of values is an equivalence. -/
lemma equivalence_beq : Equivalence fun a b : Value => a == b :=
  ⟨fun _ => BEq.rfl, BEq.symm, BEq.trans⟩

/-- Equal values have the same place in the order. -/
lemma cmp_congr_left {a b : Value} (h : a.cmp b = .eq) (c : Value) : a.cmp c = b.cmp c := by
  rw [cmp_eq_compare_sortKey a, cmp_eq_compare_sortKey b, cmp_eq_eq_iff.mp h]

/-- **The order of values is total**, on values of all kinds and of any depth, and equality is the
equivalence that belongs to it. -/
theorem cmp_total_order (a b c : Value) :
    a.cmp a = .eq ∧ b.cmp a = (a.cmp b).swap ∧
      (a.cmp b ≠ .gt → b.cmp c ≠ .gt → a.cmp c ≠ .gt) ∧
      (a.cmp b = .eq → a.cmp c = b.cmp c) ∧ Equivalence fun v w : Value => v == w := by
  refine ⟨Std.ReflCmp.compare_self, cmp_eq_swap a b, ?_, fun h => cmp_congr_left h c,
    equivalence_beq⟩
  simp only [Ordering.ne_gt_iff_isLE]
  exact Std.TransCmp.isLE_trans

/-! ### Lists in increasing order -/

lemma canonicalList_eq_map (vs : List Value) : canonicalList vs = vs.map canonical := by
  induction vs with
  | nil => rfl
  | cons v vs ih => rw [canonicalList, ih, List.map_cons]

/-- Sorting a list of values is sorting it by the order of values. -/
lemma sortList_eq_mergeSort (vs : List Value) :
    sortList vs = vs.mergeSort fun v w => (v.cmp w).isLE := by
  have hpairs : (vs.map fun v => (v.canonical, v)).mergeSort (fun a b => listedLE a.1 b.1) =
      (vs.mergeSort fun v w => (v.cmp w).isLE).map fun v => (v.canonical, v) := by
    symm
    exact List.map_mergeSort fun _ _ _ _ => rfl
  rw [sortList, hpairs, List.map_map]
  exact List.map_id _

/-- A sorted list has the same values. -/
lemma sortList_perm (vs : List Value) : (sortList vs).Perm vs := by
  rw [sortList_eq_mergeSort]
  exact List.mergeSort_perm vs _

/-- A sorted list is in increasing order. -/
lemma pairwise_sortList (vs : List Value) : (sortList vs).Pairwise fun v w => (v.cmp w).isLE := by
  rw [sortList_eq_mergeSort]
  exact List.pairwise_mergeSort (fun _ _ _ => Std.TransCmp.isLE_trans) cmp_isLE_or vs

/-- Arranging the values of a sorted list is sorting the arranged values. -/
lemma map_canonical_sortList (vs : List Value) :
    (sortList vs).map canonical = (vs.map canonical).mergeSort listedLE := by
  rw [sortList_eq_mergeSort]
  exact List.map_mergeSort fun _ _ _ _ => rfl

/-! ### The order part by part -/

lemma compareLists_map_canonical (as bs : List Value) :
    compareLists (as.map canonical) (bs.map canonical) = List.compareLex cmp as bs := by
  induction as generalizing bs with
  | nil => cases bs <;> simp [compareLists, List.compareLex]
  | cons a as ih =>
    cases bs with
    | nil => simp [compareLists, List.compareLex]
    | cons b bs =>
      rw [List.map_cons, List.map_cons, compareLists, ih, List.compareLex_cons_cons]
      rfl

lemma compareFields_canonicalFields (as bs : List (String × Value)) :
    compareFields (canonicalFields as) (canonicalFields bs) =
      List.compareLex (fun f g => (compare f.1 g.1).then (f.2.cmp g.2)) as bs := by
  induction as generalizing bs with
  | nil => cases bs <;> simp [canonicalFields, compareFields, List.compareLex]
  | cons a as ih =>
    cases bs with
    | nil => simp [canonicalFields, compareFields, List.compareLex]
    | cons b bs =>
      rw [canonicalFields, canonicalFields, compareFields, ih, List.compareLex_cons_cons]
      rfl

lemma compareEntries_canonicalEntries (as bs : List (Value × Value)) :
    compareEntries (canonicalEntries as) (canonicalEntries bs) =
      List.compareLex (fun e f => (e.1.cmp f.1).then (e.2.cmp f.2)) as bs := by
  induction as generalizing bs with
  | nil => cases bs <;> simp [canonicalEntries, compareEntries, List.compareLex]
  | cons a as ih =>
    cases bs with
    | nil => simp [canonicalEntries, compareEntries, List.compareLex]
    | cons b bs =>
      rw [canonicalEntries, canonicalEntries, compareEntries, ih, List.compareLex_cons_cons]
      rfl

lemma cmp_token (a b : Value) : (token a).cmp (token b) = a.cmp b := by
  simp only [cmp, canonical, compareListed]

/-- Tuples compare from left to right. -/
theorem cmp_tuple (as bs : List Value) : (tuple as).cmp (tuple bs) = List.compareLex cmp as bs := by
  rw [← compareLists_map_canonical]
  simp only [cmp, canonical, compareListed, canonicalList_eq_map]

/-- Sequences compare from left to right. -/
theorem cmp_seq (as bs : List Value) : (seq as).cmp (seq bs) = List.compareLex cmp as bs := by
  rw [← compareLists_map_canonical]
  simp only [cmp, canonical, compareListed, canonicalList_eq_map]

/-- Sets compare like their elements in increasing order. -/
theorem cmp_set (as bs : List Value) :
    (set as).cmp (set bs) = List.compareLex cmp (sortList as) (sortList bs) := by
  rw [← compareLists_map_canonical, map_canonical_sortList, map_canonical_sortList]
  simp only [cmp, canonical, compareListed, canonicalList_eq_map]

/-- Records compare by name, then field by field, each by its name and its value. -/
theorem cmp_record (m n : String) (as bs : List (String × Value)) :
    (record m as).cmp (record n bs) = (compare m n).then
      (List.compareLex (fun f g => (compare f.1 g.1).then (f.2.cmp g.2)) as bs) := by
  rw [← compareFields_canonicalFields]
  simp only [cmp, canonical, compareListed]

/-- Maps compare entry by entry, each by its key and its value. -/
theorem cmp_map (as bs : List (Value × Value)) :
    (map as).cmp (map bs) =
      List.compareLex (fun e f => (e.1.cmp f.1).then (e.2.cmp f.2)) as bs := by
  rw [← compareEntries_canonicalEntries]
  simp only [cmp, canonical, compareListed]

/-! ### Equal sets -/

/-- Lists of values compare from left to right like their lists of sort keys. -/
lemma compareLex_cmp_eq_compare (as bs : List Value) :
    List.compareLex cmp as bs = compare (as.map sortKey) (bs.map sortKey) := by
  induction as generalizing bs with
  | nil => cases bs <;> rfl
  | cons a as ih =>
    cases bs with
    | nil => rfl
    | cons b bs =>
      rw [List.compareLex_cons_cons, ih, cmp_eq_compare_sortKey, List.map_cons, List.map_cons,
        List.compare_cons_cons]

/-- Lists in increasing order have the same keys in the same places if they have them at all. -/
lemma map_sortKey_eq_of_perm {as bs : List Value} (has : as.Pairwise fun v w => (v.cmp w).isLE)
    (hbs : bs.Pairwise fun v w => (v.cmp w).isLE) (h : (as.map sortKey).Perm (bs.map sortKey)) :
    as.map sortKey = bs.map sortKey := by
  have hkeys : ∀ {vs : List Value}, (vs.Pairwise fun v w => (v.cmp w).isLE) →
      (vs.map sortKey).Pairwise fun k l => (compare k l).isLE := by
    intro vs hvs
    rw [List.pairwise_map]
    exact hvs.imp fun {v w} hvw => by rwa [cmp_eq_compare_sortKey] at hvw
  refine h.eq_of_pairwise (fun k l _ _ hkl hlk => ?_) (hkeys has) (hkeys hbs)
  exact Std.LawfulEqOrd.eq_of_compare (Std.OrientedCmp.isLE_antisymm hkl hlk)

/-- **Sets are equal** if they have the same keys, as often and in whatever order. -/
theorem set_beq_set_iff {as bs : List Value} :
    (set as == set bs) = true ↔ (as.map sortKey).Perm (bs.map sortKey) := by
  have hsorted : ∀ vs : List Value, ((sortList vs).map sortKey).Perm (vs.map sortKey) :=
    fun vs => (sortList_perm vs).map sortKey
  rw [beq_iff_cmp_eq, cmp_set, compareLex_cmp_eq_compare, Std.LawfulEqOrd.compare_eq_iff_eq]
  constructor
  · intro h
    exact (hsorted as).symm.trans (h ▸ hsorted bs)
  · intro h
    exact map_sortKey_eq_of_perm (pairwise_sortList as) (pairwise_sortList bs)
      ((hsorted as).trans (h.trans (hsorted bs).symm))

end Value

end BoundedLogic
