set_option relaxedAutoImplicit false
set_option autoImplicit false

/-!
# Orderings of a list

All orderings of a list of `n` items, `n!` of them. Each is made from a permutation of the positions
`0, …, n - 1`, which says from where its items are taken, one after another.

The permutations of the positions come from a library for iterators. What is assumed of it is that
it lists them in lexicographic order: the first position is chosen, from left to right, and the
positions that are left are permuted in the same way. What is done here is to take the items from
the positions.

## Main definitions

* `BoundedLogic.picks` — each item of a list with the others.
* `BoundedLogic.indexPermutations` — the permutations of the positions, as the library lists them.
* `BoundedLogic.atPositions` — the items of a list at given positions.
* `BoundedLogic.orderings` — all orderings of a list.
-/

namespace BoundedLogic

universe u

variable {α : Type u}

/-! ### The library -/

/-- Each item of a list, from left to right, with the items before and after it. -/
def picks : List α → List (α × List α)
  | [] => []
  | x :: xs => (x, xs) :: (picks xs).map fun p => (p.1, x :: p.2)

/-- All ways to choose `n` items of a list one after another. -/
def arrangements : Nat → List α → List (List α)
  | 0, _ => [[]]
  | n + 1, xs => (picks xs).flatMap fun p => (arrangements n p.2).map (p.1 :: ·)

/-- All permutations of the positions `0, …, n - 1`, in lexicographic order. -/
def indexPermutations (n : Nat) : List (List Nat) :=
  arrangements n (List.range n)

/-! ### From positions to items -/

/-- The items of a list at the given positions, in the order in which the positions are given. -/
def atPositions (xs : List α) (ps : List Nat) : List α :=
  ps.filterMap fun i => xs[i]?

/-- All orderings of a list, one for each permutation of its positions. The empty list has one,
which is empty. -/
def orderings (xs : List α) : List (List α) :=
  if xs.isEmpty then [[]] else (indexPermutations xs.length).map (atPositions xs)

end BoundedLogic
