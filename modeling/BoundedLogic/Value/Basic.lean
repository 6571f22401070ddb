import BoundedLogic.Numeric.Binary64

set_option relaxedAutoImplicit false
set_option autoImplicit false

/-!
# Values

The values a specification speaks about: Booleans, numbers, characters and quotes, and the tuples,
records, sets, sequences and maps built from them. A set is held as the list of its elements in
the order in which they were added, and a map as the list of its entries in key order; that the
elements of a set are pairwise unequal and the keys of a map increase is kept by the operations on
them.

## Main definitions

* `BoundedLogic.Value` — a value.
* `BoundedLogic.Value.Kind` — the kind of a value, with the name it has in messages.
* `BoundedLogic.Value.asBool?`, `BoundedLogic.Value.asInt?`, `BoundedLogic.Value.asSet?`,
  `BoundedLogic.Value.asSeq?`, `BoundedLogic.Value.asMap?` — the content of a value of a given
  kind.
-/

namespace BoundedLogic

/-- A value of the specification language. -/
inductive Value where
  /-- The value `nil`. -/
  | nil
  /-- A truth value. -/
  | bool (b : Bool)
  /-- An integer of 64 bits. -/
  | int (i : Int64)
  /-- A real number. -/
  | real (r : Binary64)
  /-- A character. -/
  | char (c : Char)
  /-- A quote, a constant that stands for itself. -/
  | quote (name : String)
  /-- A token, a value set apart from all values of other kinds. -/
  | token (inner : Value)
  /-- A tuple. -/
  | tuple (items : List Value)
  /-- A record of a named type, with named fields. -/
  | record (name : String) (fields : List (String × Value))
  /-- A finite set, by its elements in the order in which they are enumerated. -/
  | set (elements : List Value)
  /-- A finite sequence. -/
  | seq (items : List Value)
  /-- A finite map, by its entries in the order of their keys. -/
  | map (entries : List (Value × Value))
  /-- A function, known by its name and its number of arguments only. -/
  | function (name : String) (arity : Nat)
  deriving Inhabited

namespace Value

/-- The kinds of values. -/
inductive Kind where
  | nil
  | bool
  | int
  | real
  | char
  | quote
  | token
  | tuple
  | record
  | set
  | seq
  | map
  | function
  deriving DecidableEq, Repr

/-- The name of a kind, as it stands in messages. -/
def Kind.name : Kind → String
  | .nil => "nil"
  | .bool => "bool"
  | .int => "int"
  | .real => "real"
  | .char => "char"
  | .quote => "quote"
  | .token => "token"
  | .tuple => "tuple"
  | .record => "record"
  | .set => "set"
  | .seq => "seq"
  | .map => "map"
  | .function => "function"

/-- The kind of a value. -/
def kind : Value → Kind
  | .nil => .nil
  | .bool _ => .bool
  | .int _ => .int
  | .real _ => .real
  | .char _ => .char
  | .quote _ => .quote
  | .token _ => .token
  | .tuple _ => .tuple
  | .record _ _ => .record
  | .set _ => .set
  | .seq _ => .seq
  | .map _ => .map
  | .function _ _ => .function

/-! ### Content -/

/-- The truth value in a Boolean. -/
def asBool? : Value → Option Bool
  | .bool b => some b
  | _ => none

/-- The integer in an integer value. -/
def asInt? : Value → Option Int64
  | .int i => some i
  | _ => none

/-- The elements of a set. -/
def asSet? : Value → Option (List Value)
  | .set vs => some vs
  | _ => none

/-- The items of a sequence. -/
def asSeq? : Value → Option (List Value)
  | .seq vs => some vs
  | _ => none

/-- The entries of a map. -/
def asMap? : Value → Option (List (Value × Value))
  | .map es => some es
  | _ => none

/-! ### Construction -/

/-- A real, `-0.0` being taken as `0.0`. -/
def ofReal (r : Binary64) : Value :=
  .real r.unsignedZero

/-- A text, as the sequence of its characters. -/
def ofString (s : String) : Value :=
  .seq (s.toList.map .char)

end Value

end BoundedLogic
