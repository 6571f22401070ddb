import BoundedLogic.Value.Order
import BoundedLogic.Value.Text

set_option relaxedAutoImplicit false
set_option autoImplicit false

/-!
# Frames

A frame gives values to names, each name once, in the order in which the names were first bound.

## Main definitions

* `BoundedLogic.Frame` — names with their values.
* `BoundedLogic.Frame.bind`, `BoundedLogic.Frame.get?` — one name.
* `BoundedLogic.Frame.text` — the text `x = 1, y = true` of a frame.
-/

namespace BoundedLogic

/-- A name with its value. -/
abbrev Named := String × Value

/-- The value of the first pair with the given name. -/
def Named.find? (pairs : List Named) (name : String) : Option Value :=
  (pairs.find? fun p => p.1 == name).map Prod.snd

/-- Values for names. -/
structure Frame where
  /-- The names with their values, in the order of their first binding. -/
  entries : List Named
  deriving Inhabited

namespace Frame

/-- The frame that binds no name. -/
def empty : Frame :=
  ⟨[]⟩

/-- The number of names. -/
def size (f : Frame) : Nat :=
  f.entries.length

/-- Does the frame bind no name? -/
def isEmpty (f : Frame) : Bool :=
  f.entries.isEmpty

/-- The value of a name. -/
def get? (f : Frame) (name : String) : Option Value :=
  Named.find? f.entries name

/-- The entries with a name bound to a value: at its place if it is there, else at the end. -/
def bindEntry (name : String) (v : Value) : List Named → List Named
  | [] => [(name, v)]
  | (n, w) :: es => if n = name then (n, v) :: es else (n, w) :: bindEntry name v es

/-- The frame with a name bound to a value, which replaces the one it had. -/
def bind (f : Frame) (name : String) (v : Value) : Frame :=
  ⟨bindEntry name v f.entries⟩

/-- The frame in which the pairs are bound one after another. -/
def ofList (pairs : List Named) : Frame :=
  pairs.foldl (fun f p => f.bind p.1 p.2) empty

/-- The name and the text of the value of every entry. -/
def bindings (f : Frame) : List (String × String) :=
  f.entries.map fun e => (e.1, e.2.text)

/-- A name and the text of its value, as one text. -/
def bindingText (b : String × String) : String :=
  b.1 ++ " = " ++ b.2

/-- The text of a frame. -/
def text (f : Frame) : String :=
  commaSeparated (f.bindings.map bindingText)

/-- Frames are equal when they bind the same names in the same order to equal values. -/
instance : BEq Frame where
  beq f g := f.entries == g.entries

end Frame

end BoundedLogic
