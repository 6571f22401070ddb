import BoundedLogic.Proofs.Enumeration.Orderings
import BoundedLogic.Proofs.Value.TotalOrder
import BoundedLogic.Value.Set

set_option relaxedAutoImplicit false
set_option autoImplicit false

/-!
# Elements in increasing order

The elements of a set are pairwise unequal, so that their increasing order is strict. It is worked
out as a list of positions, and in an array that is in this order a binary search finds every
element that a scan finds: what is before an element that is too small is too small itself, and what
is after one that is too large is too large.

## Main definitions

* `BoundedLogic.Value.Distinct` — no two values of a list are equal.
* `BoundedLogic.Value.Increasing` — the values of a list are in strictly increasing order.
* `BoundedLogic.Value.IsOrderOf` — positions that list the values at them in increasing order.

## Main results

* `BoundedLogic.Value.isOrderOf_sortedPositions` — the positions that are worked out do so.
* `BoundedLogic.Value.searchSorted_iff` — binary search decides membership.
-/

namespace BoundedLogic

namespace Value

/-! ### Distinct and increasing values -/

/-- No two values of the list are equal. -/
def Distinct (vs : List Value) : Prop :=
  vs.Pairwise fun v w => (v == w) = false

/-- Each value of the list is below all values after it. -/
def Increasing (vs : List Value) : Prop :=
  vs.Pairwise fun v w => v.cmp w = .lt

/-- Values are distinct if their sort keys are. -/
lemma distinct_iff_nodup {vs : List Value} : Distinct vs ↔ (vs.map sortKey).Nodup := by
  simp only [Distinct, List.Nodup, List.pairwise_map, beq_eq_false_iff]

lemma Distinct.of_perm {as bs : List Value} (h : Distinct as) (hperm : as.Perm bs) :
    Distinct bs :=
  distinct_iff_nodup.mpr ((hperm.map sortKey).nodup_iff.mp (distinct_iff_nodup.mp h))

lemma Increasing.pairwise_isLE {vs : List Value} (h : Increasing vs) :
    vs.Pairwise fun v w => (v.cmp w).isLE :=
  h.imp fun {v w} hvw => by rw [hvw]; rfl

lemma Increasing.distinct {vs : List Value} (h : Increasing vs) : Distinct vs :=
  h.imp fun {v w} hvw => by
    rw [beq_eq_false_iff, Ne, ← cmp_eq_eq_iff, hvw]
    decide

/-- Sorting distinct values puts them in strictly increasing order. -/
lemma increasing_sortList {vs : List Value} (h : Distinct vs) : Increasing (sortList vs) := by
  have hdistinct := h.of_perm (sortList_perm vs).symm
  refine List.Pairwise.imp₂ (fun v w hle hne => ?_) (pairwise_sortList vs) hdistinct
  rw [beq_eq_false_iff, Ne, ← cmp_eq_eq_iff] at hne
  cases hvw : v.cmp w with
  | lt => rfl
  | eq => exact absurd hvw hne
  | gt => rw [hvw] at hle; cases hle

/-! ### Positions -/

/-- The positions of a list, each once, in an order in which the values at them increase. -/
structure IsOrderOf (vs : List Value) (ps : List Nat) : Prop where
  /-- Each position is listed once. -/
  perm : ps.Perm (List.range vs.length)
  /-- The values at the positions increase. -/
  increasing : Increasing (atPositions vs ps)

/-- The values at the positions of an order are those of the list. -/
lemma IsOrderOf.atPositions_perm {vs : List Value} {ps : List Nat} (h : IsOrderOf vs ps) :
    (atPositions vs ps).Perm vs := by
  have hperm := h.perm.filterMap fun i => vs[i]?
  exact hperm.trans (.of_eq (atPositions_range vs))

/-- The positions worked out for a list are those of its pairs of value and position, sorted by the
value. -/
lemma sortedPositions_eq (vs : List Value) :
    sortedPositions vs =
      (vs.zipIdx.mergeSort fun a b => (a.1.cmp b.1).isLE).map Prod.snd := by
  have hpairs : (vs.map canonical).zipIdx = vs.zipIdx.map (Prod.map canonical id) :=
    List.zipIdx_map
  have hsort : (vs.zipIdx.map (Prod.map canonical id)).mergeSort (fun a b => listedLE a.1 b.1) =
      (vs.zipIdx.mergeSort fun a b => (a.1.cmp b.1).isLE).map (Prod.map canonical id) := by
    symm
    exact List.map_mergeSort fun _ _ _ _ => rfl
  rw [sortedPositions, hpairs, hsort, List.map_map]
  rfl

/-- The values at the positions worked out for a list are the sorted list. -/
lemma atPositions_sortedPositions (vs : List Value) :
    atPositions vs (sortedPositions vs) = sortList vs := by
  have hpairs : ∀ p ∈ vs.zipIdx.mergeSort (fun a b => (a.1.cmp b.1).isLE),
      vs[p.2]? = some p.1 := fun p hp =>
    List.mem_zipIdx_iff_getElem?.mp (List.mem_mergeSort.mp hp)
  have hfst : (vs.zipIdx.mergeSort fun a b => (a.1.cmp b.1).isLE).map Prod.fst =
      (vs.zipIdx.map Prod.fst).mergeSort fun v w => (v.cmp w).isLE :=
    List.map_mergeSort fun _ _ _ _ => rfl
  calc atPositions vs (sortedPositions vs)
      = (vs.zipIdx.mergeSort fun a b => (a.1.cmp b.1).isLE).filterMap fun p => vs[p.2]? := by
        rw [atPositions, sortedPositions_eq, List.filterMap_map]
        rfl
    _ = (vs.zipIdx.mergeSort fun a b => (a.1.cmp b.1).isLE).map Prod.fst := by
        rw [List.filterMap_congr hpairs, List.filterMap_eq_map']
    _ = sortList vs := by
        rw [hfst, List.zipIdx_map_fst, sortList_eq_mergeSort]

/-- **The increasing order** of distinct values is the list of positions worked out for it. -/
theorem isOrderOf_sortedPositions {vs : List Value} (h : Distinct vs) :
    IsOrderOf vs (sortedPositions vs) where
  perm := by
    rw [sortedPositions_eq]
    have hperm := (List.mergeSort_perm vs.zipIdx fun a b => (a.1.cmp b.1).isLE).map Prod.snd
    rwa [List.zipIdx_map_snd, ← List.range_eq_range'] at hperm
  increasing := by
    rw [atPositions_sortedPositions]
    exact increasing_sortList h

/-- A list that increases is in order as it stands. -/
lemma isOrderOf_range {vs : List Value} (h : Increasing vs) :
    IsOrderOf vs (List.range vs.length) where
  perm := .refl _
  increasing := by rwa [atPositions_range]

/-! ### Binary search -/

/-- The values of an increasing array at two positions are in order. -/
lemma isLE_of_le {vs : Array Value} (h : Increasing vs.toList) {i j : Nat} {v w : Value}
    (hi : vs[i]? = some v) (hj : vs[j]? = some w) (hij : i ≤ j) : (v.cmp w).isLE := by
  obtain ⟨hi', rfl⟩ := Array.getElem?_eq_some_iff.mp hi
  obtain ⟨hj', rfl⟩ := Array.getElem?_eq_some_iff.mp hj
  rcases Nat.lt_or_eq_of_le hij with hlt | rfl
  · exact List.pairwise_iff_getElem.mp h.pairwise_isLE i j hi' hj' hlt
  · exact Std.ReflCmp.isLE_rfl

/-- **Binary search** in an increasing array tells whether one of the values between the bounds is
equal to the one that is looked for.

**Proof sketch.** Induction on the search. If the middle value is too small, so are the values
before it, and what is looked for can only be after it; likewise if it is too large. -/
theorem searchSorted_iff {vs : Array Value} (h : Increasing vs.toList) (v : Value) (lo hi : Nat)
    (hhi : hi ≤ vs.size) :
    searchSorted vs v lo hi = true ↔
      ∃ i w, lo ≤ i ∧ i < hi ∧ vs[i]? = some w ∧ (w == v) = true := by
  fun_induction searchSorted vs v lo hi with
  | case1 lo hi hlt middle hnone =>
    have hsize := Array.getElem?_eq_none_iff.mp hnone
    omega
  | case2 lo hi hlt middle w hw heq =>
    exact ⟨fun _ => ⟨middle, w, by omega, by omega, hw, beq_iff_cmp_eq.mpr heq⟩, fun _ => rfl⟩
  | case3 lo hi hlt middle w hw hbelow ih =>
    rw [ih hhi]
    constructor
    · rintro ⟨i, u, hlo, hi, hu⟩
      exact ⟨i, u, by omega, hi, hu⟩
    · rintro ⟨i, u, hlo, hi, hu, huv⟩
      refine ⟨i, u, ?_, hi, hu, huv⟩
      by_contra hle
      have huw : (u.cmp w).isLE := isLE_of_le h hu hw (by omega)
      have hlt := Std.TransCmp.lt_of_isLE_of_lt huw hbelow
      rw [beq_iff_cmp_eq.mp huv] at hlt
      cases hlt
  | case4 lo hi hlt middle w hw habove ih =>
    rw [ih (by omega)]
    constructor
    · rintro ⟨i, u, hlo, hi, hu⟩
      exact ⟨i, u, hlo, by omega, hu⟩
    · rintro ⟨i, u, hlo, hi, hu, huv⟩
      refine ⟨i, u, hlo, ?_, hu, huv⟩
      by_contra hge
      have hwu : (w.cmp u).isLE := isLE_of_le h hw hu (by omega)
      have huv' : (u.cmp v).isLE := by rw [beq_iff_cmp_eq.mp huv]; rfl
      have hle := Std.TransCmp.isLE_trans hwu huv'
      rw [habove] at hle
      cases hle
  | case5 lo hi hge =>
    constructor
    · intro hfalse
      cases hfalse
    · rintro ⟨i, u, hlo, hi, -⟩
      omega

end Value

end BoundedLogic
