import BoundedLogic.Numeric.Bounds
import BoundedLogic.Value.Order

set_option relaxedAutoImplicit false
set_option autoImplicit false

/-!
# The bytes a value is hashed by

A hash of a value is taken over a stream of bytes: the rank of its kind, then its content. Numbers
are eight bytes, lowest first; a text ends in a byte that no text contains; a list starts with its
length. Equal values have equal streams: a real that is a 64-bit integer is streamed as that
integer, and a set in increasing order.

## Main definitions

* `BoundedLogic.Value.hashStream` — the bytes a value is hashed by.
-/

namespace BoundedLogic

/-! ### Streams of the parts -/

/-- A word of eight bytes, lowest byte first. -/
def HashStream.word (w : UInt64) : List UInt8 :=
  (List.range 8).map fun i => (w >>> (8 * i).toUInt64).toUInt8

/-- A character, in four bytes. -/
def HashStream.character (c : Char) : List UInt8 :=
  (List.range 4).map fun i => (c.val >>> (8 * i).toUInt32).toUInt8

/-- A count, in eight bytes. -/
def HashStream.count (n : Nat) : List UInt8 :=
  HashStream.word n.toUInt64

/-- A text, ended by a byte that occurs in none. -/
def HashStream.text (s : String) : List UInt8 :=
  s.toUTF8.data.toList ++ [0xFF]

/-- A real: as an integer where it is one of 64 bits, else by its word. -/
def HashStream.real (r : Binary64) : List UInt8 :=
  if r.isIntegral ∧ fitsInt64 r.truncate then
    HashStream.word (Int64.ofInt r.truncate).toUInt64
  else
    HashStream.word r.unsignedZero.bits

namespace Value

/-! ### Streams of values as they are listed -/

mutual

/-- The stream of a value, each set taken as the list of its elements. -/
def listedStream : Value → List UInt8
  | .nil => [0]
  | .bool b => [1, b.toUInt8]
  | .int i => 2 :: HashStream.word i.toUInt64
  | .real r => 2 :: HashStream.real r
  | .char c => 3 :: HashStream.character c
  | .quote q => 4 :: HashStream.text q
  | .token v => 5 :: v.listedStream
  | .tuple vs => 6 :: (HashStream.count vs.length ++ listedStreams vs)
  | .record n fs => 7 :: (HashStream.text n ++ HashStream.count fs.length ++ fieldStreams fs)
  | .set vs => 8 :: (HashStream.count vs.length ++ listedStreams vs)
  | .seq vs => 9 :: (HashStream.count vs.length ++ listedStreams vs)
  | .map es => 10 :: (HashStream.count es.length ++ entryStreams es)
  | .function n k => 11 :: (HashStream.text n ++ HashStream.count k)

/-- The streams of a list of values, one after another. -/
def listedStreams : List Value → List UInt8
  | [] => []
  | v :: vs => v.listedStream ++ listedStreams vs

/-- The streams of a list of fields, each its name and its value. -/
def fieldStreams : List (String × Value) → List UInt8
  | [] => []
  | (n, v) :: fs => HashStream.text n ++ v.listedStream ++ fieldStreams fs

/-- The streams of a list of entries, each its key and its value. -/
def entryStreams : List (Value × Value) → List UInt8
  | [] => []
  | (k, v) :: es => k.listedStream ++ v.listedStream ++ entryStreams es

end

/-- The bytes a value is hashed by. -/
def hashStream (v : Value) : List UInt8 :=
  v.canonical.listedStream

end Value

end BoundedLogic
