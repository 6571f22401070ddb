import BoundedLogic.Scope.Frame

set_option relaxedAutoImplicit false
set_option autoImplicit false

/-!
# Matches

Matching a value against a pattern binds names to values. A name can come up more than once, in one
pattern or in several that are matched side by side; such a match is of use only if the name has
equal values throughout, and it then collapses to a frame.

## Main definitions

* `BoundedLogic.Match` — the bound names with their values, repeats included.
* `BoundedLogic.Match.toFrame?` — the frame of a consistent match.
-/

namespace BoundedLogic

/-- The names bound by matching, with their values, in binding order. -/
structure Match where
  /-- The bound names. A name may be there more than once. -/
  pairs : List Named
  deriving Inhabited

namespace Match

/-- The match that binds no name. -/
def empty : Match :=
  ⟨[]⟩

/-- The match that binds one name. -/
def single (name : String) (v : Value) : Match :=
  ⟨[(name, v)]⟩

/-- The match with one more binding. -/
def push (m : Match) (name : String) (v : Value) : Match :=
  ⟨m.pairs ++ [(name, v)]⟩

/-- The bindings of `m`, then those of `n`. -/
def append (m n : Match) : Match :=
  ⟨m.pairs ++ n.pairs⟩

instance : Append Match where
  append := append

/-- The bindings of several matches, one after another. -/
def concat (ms : List Match) : Match :=
  ⟨ms.flatMap pairs⟩

/-- The number of bindings. -/
def size (m : Match) : Nat :=
  m.pairs.length

/-- Is no name bound? -/
def isEmpty (m : Match) : Bool :=
  m.pairs.isEmpty

/-- The value of the first binding of a name. -/
def get? (m : Match) (name : String) : Option Value :=
  Named.find? m.pairs name

/-- The frame with the given bindings added, each name at its first one. There is none if a name
has two unequal values. -/
def collapse : List Named → Frame → Option Frame
  | [], f => some f
  | (name, v) :: ps, f =>
    match f.get? name with
    | some w => if w == v then collapse ps f else none
    | none => collapse ps (f.bind name v)

/-- The frame of a match whose repeated names agree. -/
def toFrame? (m : Match) : Option Frame :=
  collapse m.pairs .empty

/-- Do all bindings of one name agree? -/
def isConsistent (m : Match) : Bool :=
  m.toFrame?.isSome

end Match

end BoundedLogic
