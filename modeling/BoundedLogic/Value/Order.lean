import BoundedLogic.Value.Basic

set_option relaxedAutoImplicit false
set_option autoImplicit false

/-!
# The order of values

Any two values can be compared. Values of different kinds are ordered by kind, except that
integers and reals are compared as numbers; tuples, sequences and the fields of records are
compared from left to right, a proper initial part being smaller. A set is compared through its
elements in increasing order, so the order in which they were added does not matter.

To compare sets inside sets, every set in the two values is first listed in increasing order, from
the innermost ones out (`BoundedLogic.Value.canonical`); the values so arranged are then compared
as they are listed (`BoundedLogic.Value.compareListed`).

## Main definitions

* `BoundedLogic.Value.compareListed` — the order of values, each set taken as it is listed.
* `BoundedLogic.Value.canonical` — a value with every set in it listed in increasing order.
* `BoundedLogic.Value.cmp` — the order of values, which is also their `Ord` instance; `==` holds
  of two values that it does not separate.
* `BoundedLogic.Value.sortList` — a list of values in increasing order.
-/

namespace BoundedLogic

namespace Value

/-- The place of a kind among the kinds. Integers and reals share one place. -/
def Kind.rank : Kind → Nat
  | .nil => 0
  | .bool => 1
  | .int => 2
  | .real => 2
  | .char => 3
  | .quote => 4
  | .token => 5
  | .tuple => 6
  | .record => 7
  | .set => 8
  | .seq => 9
  | .map => 10
  | .function => 11

/-! ### Values as they are listed -/

mutual

/-- The order of two values, each set taken as the list of its elements. -/
def compareListed : Value → Value → Ordering
  | .nil, .nil => .eq
  | .bool a, .bool b => compare a b
  | .int a, .int b => compare a b
  | .real a, .real b => compare a b
  | .int a, .real b => Binary64.compareInt a b
  | .real a, .int b => (Binary64.compareInt b a).swap
  | .char a, .char b => compare a b
  | .quote a, .quote b => compare a b
  | .token a, .token b => compareListed a b
  | .tuple a, .tuple b => compareLists a b
  | .record m a, .record n b => (compare m n).then (compareFields a b)
  | .set a, .set b => compareLists a b
  | .seq a, .seq b => compareLists a b
  | .map a, .map b => compareEntries a b
  | .function m a, .function n b => (compare m n).then (compare a b)
  | a, b => compare a.kind.rank b.kind.rank

/-- The order of two lists of values, from left to right. -/
def compareLists : List Value → List Value → Ordering
  | [], [] => .eq
  | [], _ :: _ => .lt
  | _ :: _, [] => .gt
  | a :: as, b :: bs => (compareListed a b).then (compareLists as bs)

/-- The order of two lists of fields, from left to right, each field by name and value. -/
def compareFields : List (String × Value) → List (String × Value) → Ordering
  | [], [] => .eq
  | [], _ :: _ => .lt
  | _ :: _, [] => .gt
  | (m, a) :: as, (n, b) :: bs =>
    ((compare m n).then (compareListed a b)).then (compareFields as bs)

/-- The order of two lists of entries, from left to right, each entry by key and value. -/
def compareEntries : List (Value × Value) → List (Value × Value) → Ordering
  | [], [] => .eq
  | [], _ :: _ => .lt
  | _ :: _, [] => .gt
  | (k, a) :: as, (l, b) :: bs =>
    ((compareListed k l).then (compareListed a b)).then (compareEntries as bs)

end

/-- Does the first value come no later than the second, as they are listed? -/
def listedLE (a b : Value) : Bool :=
  (compareListed a b).isLE

/-! ### Arrangement of sets -/

mutual

/-- The value with every set in it, at any depth, listed in increasing order. -/
def canonical : Value → Value
  | .token v => .token v.canonical
  | .tuple vs => .tuple (canonicalList vs)
  | .record n fs => .record n (canonicalFields fs)
  | .set vs => .set ((canonicalList vs).mergeSort listedLE)
  | .seq vs => .seq (canonicalList vs)
  | .map es => .map (canonicalEntries es)
  | v => v

/-- A list of values, each arranged. -/
def canonicalList : List Value → List Value
  | [] => []
  | v :: vs => v.canonical :: canonicalList vs

/-- A list of fields, the value of each arranged. -/
def canonicalFields : List (String × Value) → List (String × Value)
  | [] => []
  | (n, v) :: fs => (n, v.canonical) :: canonicalFields fs

/-- A list of entries, the key and the value of each arranged. -/
def canonicalEntries : List (Value × Value) → List (Value × Value)
  | [] => []
  | (k, v) :: es => (k.canonical, v.canonical) :: canonicalEntries es

end

/-! ### The order -/

/-- The order of two values. -/
def cmp (a b : Value) : Ordering :=
  compareListed a.canonical b.canonical

instance : Ord Value where
  compare := cmp

/-- Values are equal when the order does not separate them. -/
instance : BEq Value where
  beq a b := a.cmp b == .eq

/-- The values in increasing order, equal ones in their old order. Each value is arranged once
and then compared in its arranged form. -/
def sortList (vs : List Value) : List Value :=
  ((vs.map fun v => (v.canonical, v)).mergeSort fun a b => listedLE a.1 b.1).map Prod.snd

end Value

end BoundedLogic
