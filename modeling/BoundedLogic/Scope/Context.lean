import BoundedLogic.Scope.Frame

set_option relaxedAutoImplicit false
set_option autoImplicit false

/-!
# Contexts

A context is a chain of scopes, the innermost first. A name is looked up from the inside out.

## Main definitions

* `BoundedLogic.Context` — the innermost scope and those around it.
* `BoundedLogic.Context.extend` — a context with one more scope inside.
* `BoundedLogic.Context.lookup?` — the value of a name.
-/

namespace BoundedLogic

/-- One scope: a frame, with a title that says what it is for. -/
structure Scope where
  /-- What the scope is for. -/
  title : String
  /-- The names bound in the scope. -/
  frame : Frame
  deriving Inhabited

/-- A chain of scopes. -/
structure Context where
  /-- The innermost scope. -/
  inner : Scope
  /-- The scopes around it, from the inside out. -/
  outer : List Scope
  deriving Inhabited

namespace Context

/-- The context of one scope. -/
def withFrame (title : String) (frame : Frame) : Context :=
  ⟨⟨title, frame⟩, []⟩

/-- The context of one scope that binds no name. -/
def root : Context :=
  withFrame "root" .empty

/-- The context with one more scope inside. -/
def extend (c : Context) (title : String) (frame : Frame) : Context :=
  ⟨⟨title, frame⟩, c.inner :: c.outer⟩

/-- The title of the innermost scope. -/
def title (c : Context) : String :=
  c.inner.title

/-- The frame of the innermost scope. -/
def frame (c : Context) : Frame :=
  c.inner.frame

/-- The number of scopes around the innermost one. -/
def depth (c : Context) : Nat :=
  c.outer.length

/-- The value a name has in the innermost scope that binds it. -/
def lookup? (c : Context) (name : String) : Option Value :=
  (c.inner :: c.outer).findSome? fun s => s.frame.get? name

/-- The context with a name bound in its innermost scope. -/
def bind (c : Context) (name : String) (v : Value) : Context :=
  { c with inner := { c.inner with frame := c.inner.frame.bind name v } }

end Context

end BoundedLogic
