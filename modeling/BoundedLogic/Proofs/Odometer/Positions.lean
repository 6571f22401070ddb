import BoundedLogic.Proofs.Odometer.Product
import Mathlib.Data.List.Lex
import Mathlib.Data.List.Pairwise

set_option relaxedAutoImplicit false
set_option autoImplicit false

/-!
# Combinations by position

A combination of several lists of matches is given by a tuple of positions, one in each list. Listed
in lexicographic order, in which the last position changes fastest, the tuples give the combinations
in the order of the product of the lists.

## Main definitions

* `BoundedLogic.positionTuples` — the tuples of positions, in lexicographic order.
* `BoundedLogic.Match.combine` — the combination at a tuple of positions.

## Main results

* `BoundedLogic.mem_positionTuples_iff`, `BoundedLogic.pairwise_positionTuples` — every tuple is
  listed, and in increasing order.
* `BoundedLogic.Match.product_eq_map_combine` — the product of several lists of matches, by
  position.
-/

namespace BoundedLogic

/-! ### Tuples of positions -/

/-- The tuples of numbers below the given ones, in lexicographic order. -/
def positionTuples : List Nat → List (List Nat)
  | [] => [[]]
  | n :: ns => (List.range n).flatMap fun i => (positionTuples ns).map (i :: ·)

/-- Every tuple of numbers below the given ones is listed, and no other. -/
lemma mem_positionTuples_iff {ns is : List Nat} :
    is ∈ positionTuples ns ↔ List.Forall₂ (· < ·) is ns := by
  induction ns generalizing is with
  | nil => simp [positionTuples]
  | cons n ns ih =>
    simp only [positionTuples, List.mem_flatMap, List.mem_range, List.mem_map, ih]
    constructor
    · rintro ⟨i, hi, js, hjs, rfl⟩
      exact .cons hi hjs
    · rintro (_ | ⟨hi, hjs⟩)
      exact ⟨_, hi, _, hjs, rfl⟩

/-- The tuples are listed in increasing order, so each of them once. -/
lemma pairwise_positionTuples (ns : List Nat) : (positionTuples ns).Pairwise (· < ·) := by
  induction ns with
  | nil => exact List.pairwise_singleton _ _
  | cons n ns ih =>
    rw [positionTuples, List.pairwise_flatMap]
    constructor
    · intro i _
      rw [List.pairwise_map]
      exact ih.imp fun h => List.cons_lt_cons_iff.mpr (.inr ⟨rfl, h⟩)
    · refine List.pairwise_lt_range.imp fun {i j} hij => ?_
      intro is his js hjs
      obtain ⟨is, -, rfl⟩ := List.mem_map.mp his
      obtain ⟨js, -, rfl⟩ := List.mem_map.mp hjs
      exact List.cons_lt_cons_iff.mpr (.inl hij)

/-! ### Combinations -/

namespace Match

/-- The matches at a tuple of positions, one from each list. -/
def pick (mss : List (List Match)) (is : List Nat) : List Match :=
  (mss.zip is).filterMap fun p => p.1[p.2]?

/-- The combination at a tuple of positions: the bindings of the matches there, one match after
another. -/
def combine (mss : List (List Match)) (is : List Nat) : Match :=
  concat (pick mss is)

/-- The combination at a tuple of positions begins with the match at the first one. -/
lemma combine_cons {ms : List Match} {i : Nat} {m : Match} (h : ms[i]? = some m)
    (mss : List (List Match)) (is : List Nat) :
    combine (ms :: mss) (i :: is) = m ++ combine mss is := by
  have hpick : pick (ms :: mss) (i :: is) = m :: pick mss is := by
    rw [pick, List.zip_cons_cons, List.filterMap_cons, h]
    rfl
  rw [combine, hpick, concat_cons]
  rfl

/-- **The product by position**: the combinations of several lists of matches are those at the
tuples of positions in them, in lexicographic order.

**Proof sketch.** Induction on the lists. To go through the first list is to go through its
positions, and the combinations of the others follow for each of them. -/
theorem product_eq_map_combine (mss : List (List Match)) :
    product mss = (positionTuples (mss.map List.length)).map (combine mss) := by
  induction mss with
  | nil => rfl
  | cons ms mss ih =>
    have hat : ∀ p ∈ ms.zipIdx, (product mss).map (p.1 ++ ·) =
        (positionTuples (mss.map List.length)).map fun is => combine (ms :: mss) (p.2 :: is) := by
      intro p hp
      rw [ih, List.map_map]
      refine List.map_congr_left fun is _ => ?_
      exact (combine_cons (List.mem_zipIdx_iff_getElem?.mp hp) mss is).symm
    calc product (ms :: mss)
        = ms.zipIdx.flatMap fun p => (product mss).map (p.1 ++ ·) := by
          conv_lhs => rw [product, ← List.zipIdx_map_fst 0 ms, List.flatMap_map]
      _ = ms.zipIdx.flatMap fun p => (positionTuples (mss.map List.length)).map fun is =>
            combine (ms :: mss) (p.2 :: is) := List.flatMap_congr hat
      _ = (List.range ms.length).flatMap fun i => (positionTuples (mss.map List.length)).map
            fun is => combine (ms :: mss) (i :: is) := by
          rw [List.range_eq_range', ← List.zipIdx_map_snd, List.flatMap_map]
      _ = (positionTuples ((ms :: mss).map List.length)).map (combine (ms :: mss)) := by
          simp only [List.map_cons, positionTuples, List.map_flatMap, List.map_map,
            Function.comp_def]

end Match

end BoundedLogic
