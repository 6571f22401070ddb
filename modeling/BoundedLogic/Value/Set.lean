import BoundedLogic.Value.HashStream
import BoundedLogic.Value.Text

set_option relaxedAutoImplicit false
set_option autoImplicit false

/-!
# Sets of values

A set keeps its elements in the order in which they were added, so that enumerating it is
deterministic; what it is equal to, and how it is ordered and hashed, depends on its elements in
increasing order only. That order is worked out when it is first asked for and then kept, as the
list of the positions of the elements, until an element is added. While it is known, membership is
decided by binary search instead of a scan.

## Main definitions

* `BoundedLogic.ValueSet` — a set of values, with its increasing order if that is known.
* `BoundedLogic.ValueSet.contains` — membership, by search or by scan.
* `BoundedLogic.ValueSet.insert`, `BoundedLogic.ValueSet.extend`, `BoundedLogic.ValueSet.union` —
  the operations that add elements.
* `BoundedLogic.ValueSet.sorted`, `BoundedLogic.ValueSet.sort` — the elements in increasing order.
-/

namespace BoundedLogic

/-- Is a value among the values at the positions from `lo` up to but not including `hi` of an array
in increasing order? The middle one decides which half is searched on. -/
def Value.searchSorted (vs : Array Value) (v : Value) (lo hi : Nat) : Bool :=
  if lo < hi then
    let middle := (lo + hi) / 2
    match vs[middle]? with
    | none => false
    | some w =>
      match w.cmp v with
      | .eq => true
      | .lt => searchSorted vs v (middle + 1) hi
      | .gt => searchSorted vs v lo middle
  else
    false
termination_by hi - lo

/-- The positions of the elements of a list in increasing order of the elements. -/
def Value.sortedPositions (vs : List Value) : List Nat :=
  ((vs.map Value.canonical).zipIdx.mergeSort fun a b => listedLE a.1 b.1).map Prod.snd

/-- A set of values. -/
structure ValueSet where
  /-- The elements, pairwise unequal, in the order in which they were added. -/
  elements : List Value
  /-- The positions of the elements in increasing order, if they have been worked out. -/
  order : Option (List Nat) := none
  deriving Inhabited

namespace ValueSet

/-- The set without elements. -/
def empty : ValueSet :=
  ⟨[], none⟩

/-- The set of the given values, which are pairwise unequal. -/
def ofDistinct (vs : List Value) : ValueSet :=
  ⟨vs, none⟩

/-- The set as a value. -/
def toValue (s : ValueSet) : Value :=
  .set s.elements

/-- The number of elements. -/
def size (s : ValueSet) : Nat :=
  s.elements.length

/-- Has the set no elements? -/
def isEmpty (s : ValueSet) : Bool :=
  s.elements.isEmpty

/-- The element at a position of the current order. -/
def get? (s : ValueSet) (i : Nat) : Option Value :=
  s.elements[i]?

/-! ### The increasing order -/

/-- The positions of the elements in increasing order: as they are known, or worked out. -/
def positions (s : ValueSet) : List Nat :=
  s.order.getD (Value.sortedPositions s.elements)

/-- The same set, its increasing order known. -/
def withOrder (s : ValueSet) : ValueSet :=
  { s with order := some s.positions }

/-- The elements in increasing order. -/
def sorted (s : ValueSet) : List Value :=
  let elements := s.elements.toArray
  s.positions.filterMap fun i => elements[i]?

/-- The same set, its elements rearranged in increasing order. A set that is in order already keeps
its list of elements. -/
def sort (s : ValueSet) : ValueSet :=
  if s.positions = List.range s.size then s.withOrder
  else ⟨s.sorted, some (List.range s.size)⟩

/-! ### Membership and growth -/

/-- Is some element equal to `v`? Decided by binary search where the increasing order is known, and
else by a scan. -/
def contains (s : ValueSet) (v : Value) : Bool :=
  match s.order with
  | some _ => Value.searchSorted s.sorted.toArray v 0 s.size
  | none => s.elements.any fun w => w == v

/-- The set with one more element, which is unequal to all others. -/
def push (s : ValueSet) (v : Value) : ValueSet :=
  ⟨s.elements ++ [v], none⟩

/-- The set with `v` added. A set that contains `v` stays as it is. -/
def insert (s : ValueSet) (v : Value) : ValueSet :=
  if s.contains v then s else s.push v

/-- The set with values added one after another. -/
def extend (s : ValueSet) (vs : List Value) : ValueSet :=
  vs.foldl insert s

/-- The set of the given values, of equal ones the first. -/
def ofList (vs : List Value) : ValueSet :=
  empty.extend vs

/-- The set of the elements of `s` and those of `t`, with the elements of `s` first. -/
def union (s t : ValueSet) : ValueSet :=
  s.extend t.elements

/-- Is every element of `s` in `t`? A larger set is refused without a look at its elements. -/
def isSubset (s t : ValueSet) : Bool :=
  decide (s.size ≤ t.size) && s.elements.all t.contains

/-! ### Comparison -/

/-- The order of sets: that of their elements in increasing order, from left to right. -/
def cmp (s t : ValueSet) : Ordering :=
  List.compareLex Value.cmp s.sorted t.sorted

instance : Ord ValueSet where
  compare := cmp

/-- Sets are equal when they have as many elements and these are equal in increasing order. -/
instance : BEq ValueSet where
  beq s t := s.size == t.size && s.sorted == t.sorted

/-- The bytes a set is hashed by: the number of its elements, then these in increasing order. -/
def hashStream (s : ValueSet) : List UInt8 :=
  HashStream.count s.size ++ s.sorted.flatMap Value.hashStream

/-- The text of a set. -/
def text (s : ValueSet) : String :=
  s.toValue.text

end ValueSet

end BoundedLogic
