import BoundedLogic.Value.Set

set_option relaxedAutoImplicit false
set_option autoImplicit false

/-!
# Maps of values

A finite map is the list of its entries in increasing order of their keys, no two of which are
equal. Two equal keys can still look different (`1` and `1.0`): inserting under a key that is
present keeps the key and replaces the value, while a map made from a list of pairs takes both from
the last pair of equal keys.

## Main definitions

* `BoundedLogic.ValueMap` — a finite map.
* `BoundedLogic.ValueMap.insert`, `BoundedLogic.ValueMap.get?` — one entry.
* `BoundedLogic.ValueMap.ofPairs` — the map of a list of pairs.
* `BoundedLogic.ValueMap.dom`, `BoundedLogic.ValueMap.rng` — the sets of its keys and of its values.
-/

namespace BoundedLogic

/-- A finite map from values to values. -/
structure ValueMap where
  /-- The entries, in increasing order of their keys. -/
  entries : List (Value × Value)
  deriving Inhabited

namespace ValueMap

/-- The map without entries. -/
def empty : ValueMap :=
  ⟨[]⟩

/-- The map as a value. -/
def toValue (m : ValueMap) : Value :=
  .map m.entries

/-- The number of entries. -/
def size (m : ValueMap) : Nat :=
  m.entries.length

/-- Has the map no entries? -/
def isEmpty (m : ValueMap) : Bool :=
  m.entries.isEmpty

/-! ### Single entries -/

/-- The value under a key. -/
def get? (m : ValueMap) (k : Value) : Option Value :=
  (m.entries.find? fun e => e.1 == k).map Prod.snd

/-- Is there an entry for a key? -/
def containsKey (m : ValueMap) (k : Value) : Bool :=
  m.entries.any fun e => e.1 == k

/-- The entries with `v` put under `k`: in place of the value there, or at its place in the
order. -/
def insertEntry (k v : Value) : List (Value × Value) → List (Value × Value)
  | [] => [(k, v)]
  | (l, w) :: es =>
    match k.cmp l with
    | .lt => (k, v) :: (l, w) :: es
    | .eq => (l, v) :: es
    | .gt => (l, w) :: insertEntry k v es

/-- The map with `v` under `k`. -/
def insert (m : ValueMap) (k v : Value) : ValueMap :=
  ⟨insertEntry k v m.entries⟩

/-! ### Maps of pairs -/

/-- The pairs without those that are followed by one with an equal key. -/
def dropOverwritten : List (Value × Value) → List (Value × Value)
  | [] => []
  | [e] => [e]
  | e :: f :: es => if e.1 == f.1 then dropOverwritten (f :: es) else e :: dropOverwritten (f :: es)

/-- The map of a list of pairs, of equal keys the last pair. -/
def ofPairs (ps : List (Value × Value)) : ValueMap :=
  let keyed := ps.map fun p => (p.1.canonical, p)
  ⟨dropOverwritten ((keyed.mergeSort fun a b => Value.listedLE a.1 b.1).map Prod.snd)⟩

/-! ### Domain and range -/

/-- The set of the keys, in key order. -/
def dom (m : ValueMap) : ValueSet :=
  .ofDistinct (m.entries.map Prod.fst)

/-- The set of the values, in the order of their first keys. -/
def rng (m : ValueMap) : ValueSet :=
  .ofList (m.entries.map Prod.snd)

/-! ### Comparison -/

/-- The order of maps: that of their entries, from left to right, each by key and value. -/
def cmp (m n : ValueMap) : Ordering :=
  m.toValue.cmp n.toValue

instance : Ord ValueMap where
  compare := cmp

/-- Maps are equal when the order does not separate them. -/
instance : BEq ValueMap where
  beq m n := m.cmp n == .eq

/-- The bytes a map is hashed by. -/
def hashStream (m : ValueMap) : List UInt8 :=
  m.toValue.hashStream

/-- The text of a map. -/
def text (m : ValueMap) : String :=
  m.toValue.text

end ValueMap

end BoundedLogic
