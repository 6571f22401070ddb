import BoundedLogic.Evaluation.Binding
import BoundedLogic.Pattern.Matching

set_option relaxedAutoImplicit false
set_option autoImplicit false

/-!
# Cursors

A cursor walks over the matches of one pattern of a binding: each value of the domain contributes
all its ways to match, in turn, and a value that does not match contributes none.

## Main definitions

* `BoundedLogic.Cursor` — the matches of a pattern, with those still to come.
* `BoundedLogic.Cursor.load` — the matches of given values.
* `BoundedLogic.Cursor.next` — one step.
-/

namespace BoundedLogic

/-- A walk over the matches of a pattern. -/
structure Cursor where
  /-- The pattern. -/
  pattern : Pattern
  /-- All matches, in order. -/
  found : List Match := []
  /-- The matches still to come. -/
  rest : List Match := []
  deriving Inhabited

namespace Cursor

variable {σ : Type}

/-- The cursor at the start of the matches of the given values. -/
def load (c : Cursor) (allOrders : Bool) (values : List Value) : Cursor :=
  let found := values.flatMap (c.pattern.matchings allOrders)
  { c with found, rest := found }

/-- The cursor at the start of the matches of the values a binding ranges over. -/
def start (c : Cursor) (b : Binding σ) (lenient : Bool) (env : Context) : Eval σ Cursor := do
  let values ← b.resolveValues lenient env
  pure (c.load (← read).allPossibilities values)

/-- The number of matches, those passed included. -/
def size (c : Cursor) : Nat :=
  c.found.length

/-- Are there no matches at all? -/
def isEmpty (c : Cursor) : Bool :=
  c.found.isEmpty

/-- Is a match still to come? -/
def hasNext (c : Cursor) : Bool :=
  !c.rest.isEmpty

/-- The match at a position, passed or not. -/
def get? (c : Cursor) (i : Nat) : Option Match :=
  c.found[i]?

/-- The cursor back at the start. -/
def reset (c : Cursor) : Cursor :=
  { c with rest := c.found }

/-- The next match, and the cursor after it. Past the last match this is an error. -/
def next (c : Cursor) : Except EvalError Match × Cursor :=
  match c.rest with
  | [] => (.error .exhausted, c)
  | m :: ms => (.ok m, { c with rest := ms })

end Cursor

end BoundedLogic
