import BoundedLogic.Scope.Frame

set_option relaxedAutoImplicit false
set_option autoImplicit false

/-!
# Counterexamples

While a universal quantification is found to be false, the frames that falsify it are recorded,
that of the innermost quantification first.

## Main definitions

* `BoundedLogic.Counterexample` — the recorded frames.
* `BoundedLogic.Counterexample.bindings`, `BoundedLogic.Counterexample.text` — what is shown.
-/

namespace BoundedLogic

/-- The frames on which universal quantifications were false. -/
structure Counterexample where
  /-- The frames, in the order in which they were recorded. -/
  frames : List Frame
  deriving Inhabited

namespace Counterexample

/-- No frames. -/
def empty : Counterexample :=
  ⟨[]⟩

/-- One more frame. -/
def push (c : Counterexample) (f : Frame) : Counterexample :=
  ⟨c.frames ++ [f]⟩

/-- The first `n` frames. -/
def truncate (c : Counterexample) (n : Nat) : Counterexample :=
  ⟨c.frames.take n⟩

/-- The number of frames. -/
def size (c : Counterexample) : Nat :=
  c.frames.length

/-- Are there no frames? -/
def isEmpty (c : Counterexample) : Bool :=
  c.frames.isEmpty

/-- The names and the texts of their values, frame by frame. -/
def bindings (c : Counterexample) : List (String × String) :=
  c.frames.flatMap Frame.bindings

/-- The text of the recorded frames. Frames that bind nothing are left out. -/
def text (c : Counterexample) : String :=
  commaSeparated ((c.frames.filter fun f => !f.isEmpty).map Frame.text)

end Counterexample

end BoundedLogic
