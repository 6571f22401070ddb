import BoundedLogic.Enumeration.Error
import BoundedLogic.Value.Set

set_option relaxedAutoImplicit false
set_option autoImplicit false

/-!
# Subsets

All subsets of a set, in the order of the numbers whose bits tell which elements are in: subset
number `k` holds element number `i` when bit `i` of `k` is set. The empty set comes first and the
whole set last. As there are many of them, the enumeration asks after every subset whether it is to
go on.

## Main definitions

* `BoundedLogic.pickBits` — the items of a list at the set bits of a number.
* `BoundedLogic.subsets` — all subsets, within a limit and unless told to stop.
* `BoundedLogic.powerSet` — all subsets of a set of values, as a set of sets.
-/

namespace BoundedLogic

universe u

/-- The items of a list at the positions of the set bits of a number, in list order. -/
def pickBits {α : Type u} : List α → Nat → List α
  | [], _ => []
  | x :: xs, k => if k % 2 = 1 then x :: pickBits xs (k / 2) else pickBits xs (k / 2)

/-- Subsets number `k`, `k + 1`, … of a list, `count` of them, after those already built, the last
built one first. After each of them `stop` is asked, and a positive answer cancels the rest. -/
def subsetsFrom {m : Type → Type} [Monad m] {α : Type} (stop : m Bool) (xs : List α) :
    Nat → Nat → List (List α) → ExceptT EnumerationError m (List (List α))
  | 0, _, built => pure built.reverse
  | count + 1, k, built => do
    if ← (stop : ExceptT EnumerationError m Bool) then
      throw (.cancelled xs.length)
    subsetsFrom stop xs count (k + 1) (pickBits xs k :: built)

/-- Lists of this length and more have too many subsets to be numbered by a machine word. -/
def wordBits : Nat :=
  64

/-- All subsets of a list of distinct items. More items than the limit, or sixty-four and more, are
refused before anything is enumerated or asked. That a machine makes room for all subsets at once,
before it builds the first one, is left out here: for fifty-eight to sixty-three items this fails,
though the limit may allow them. -/
def subsets {m : Type → Type} [Monad m] {α : Type} (stop : m Bool) (xs : List α) (limit : Nat) :
    ExceptT EnumerationError m (List (List α)) :=
  if limit < xs.length ∨ wordBits ≤ xs.length then
    throw (.capacityExceeded xs.length limit)
  else
    subsetsFrom stop xs (Nat.pow 2 xs.length) 0 []

/-- The set of all subsets of a set of values. -/
def powerSet {m : Type → Type} [Monad m] (stop : m Bool) (s : ValueSet) (limit : Nat) :
    ExceptT EnumerationError m ValueSet := do
  let parts ← subsets stop s.elements limit
  pure (.ofDistinct (parts.map .set))

end BoundedLogic
