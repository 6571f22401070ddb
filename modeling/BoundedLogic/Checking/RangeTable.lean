import BoundedLogic.Checking.Error
import BoundedLogic.Value.Set

set_option relaxedAutoImplicit false
set_option autoImplicit false

/-!
# Range tables

A range table gives finite sets of values to bindings, each known by its text.

## Main definitions

* `BoundedLogic.RangeTable` — texts of bindings with their ranges.
* `BoundedLogic.RangeTable.insert`, `BoundedLogic.RangeTable.get?` — one range.
-/

namespace BoundedLogic

/-- Ranges for bindings. -/
structure RangeTable where
  /-- The texts of bindings with their ranges, in alphabetical order of the texts. -/
  entries : List (String × ValueSet)
  deriving Inhabited

namespace RangeTable

/-- The table without ranges. -/
def empty : RangeTable :=
  ⟨[]⟩

/-- The number of ranges. -/
def size (t : RangeTable) : Nat :=
  t.entries.length

/-- Are there no ranges? -/
def isEmpty (t : RangeTable) : Bool :=
  t.entries.isEmpty

/-- The entries with a range put under a text: in place of the range there, or at its place in the
order. -/
def insertEntry (text : String) (range : ValueSet) :
    List (String × ValueSet) → List (String × ValueSet)
  | [] => [(text, range)]
  | (other, old) :: es =>
    match compare text other with
    | .lt => (text, range) :: (other, old) :: es
    | .eq => (other, range) :: es
    | .gt => (other, old) :: insertEntry text range es

/-- The table with a range under a text. -/
def insertSet (t : RangeTable) (text : String) (range : ValueSet) : RangeTable :=
  ⟨insertEntry text range t.entries⟩

/-- The table with a value under a text as its range. Only a set can be a range. -/
def insert (t : RangeTable) (text : String) (v : Value) : Except CheckError RangeTable :=
  match v with
  | .set vs => .ok (t.insertSet text (.ofDistinct vs))
  | v => .error (.rangeNotASet text v.kind.name)

/-- The range under a text. -/
def get? (t : RangeTable) (text : String) : Option ValueSet :=
  (t.entries.find? fun e => e.1 == text).map Prod.snd

/-- Is there a range under a text? -/
def contains (t : RangeTable) (text : String) : Bool :=
  t.entries.any fun e => e.1 == text

end RangeTable

end BoundedLogic
