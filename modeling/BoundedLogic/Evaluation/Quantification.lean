import BoundedLogic.Evaluation.Odometer

set_option relaxedAutoImplicit false
set_option autoImplicit false

/-!
# Quantifications

A quantification asks for how many combinations of its bindings a predicate is true: for all of
them, for at least one, or for exactly one. The combinations are scanned in order, those in which a
name has two unequal values are passed over, and the predicate is evaluated in the context extended
by the frame of the combination. The scan ends as soon as the answer is known.

Where a counterexample is recorded, a universal quantification that is false leaves in it the
frames that its predicate left and its own frame after them; one that is true leaves it empty. An
existential quantification cuts it back to the size it had.

## Main definitions

* `BoundedLogic.Quantifier` — the three kinds of quantification.
* `BoundedLogic.Quantifier.scan` — the predicate on one combination after another.
* `BoundedLogic.Quantifier.evaluate` — the answer of a quantification.
-/

namespace BoundedLogic

/-- The kinds of quantification. -/
inductive Quantifier where
  /-- True when the predicate is true for all combinations. -/
  | universal
  /-- True when the predicate is true for some combination. -/
  | existential
  /-- True when the predicate is true for exactly one combination. -/
  | unique
  deriving DecidableEq, Repr, Inhabited

namespace Quantifier

variable {σ β : Type}

/-- The keyword of a quantification, which is also the title of the scopes it opens. -/
def keyword : Quantifier → String
  | .universal => "forall"
  | .existential => "exists"
  | .unique => "exists1"

/-! ### Scanning -/

/-- Evaluate the predicate on the combinations still to come, at most `fuel` of them, and pass each
answer with its frame to `visit`, until that is done. A terminate stops the scan before the next
combination. -/
def scanFrom (q : Quantifier) (env : Context) (predicate : Context → Eval σ Value)
    (visit : β → Bool → Frame → Eval σ (ForInStep β)) : Nat → Odometer σ → β → Eval σ β
  | 0, _, acc => pure acc
  | fuel + 1, odometer, acc => do
    if odometer.isOver then
      pure acc
    else
      if ← Eval.terminateRequested then
        throw .cancelled
      let (combination, odometer) := odometer.next
      let combination ← Eval.ofExcept combination
      match combination.toFrame? with
      | none => scanFrom q env predicate visit fuel odometer acc
      | some frame =>
        let answer ← predicate (env.extend q.keyword frame)
        match answer.asBool? with
        | none => throw (.notBoolean answer.kind.name)
        | some holds =>
          match ← visit acc holds frame with
          | .done acc => pure acc
          | .yield acc => scanFrom q env predicate visit fuel odometer acc

/-- Evaluate the predicate on the combinations of the bindings. Where asked to, the scan starts with
no frame recorded. -/
def scan (q : Quantifier) (bindings : List (Binding σ)) (env : Context)
    (predicate : Context → Eval σ Value) (startsClear : Bool)
    (visit : β → Bool → Frame → Eval σ (ForInStep β)) (acc : β) : Eval σ β := do
  let (odometer, failure) ←
    (Odometer.ofBindings bindings).start (← read).allowUnresolved env
  match failure with
  | some e => throw e
  | none =>
    if startsClear then
      Eval.clearCounterexample
    scanFrom q env predicate visit odometer.combinations odometer acc

/-! ### Answers -/

/-- On to the next combination while the predicate holds, with no frame recorded; a frame on which
it fails is recorded and ends the scan. -/
def visitUniversal (acc : Bool) (holds : Bool) (frame : Frame) : Eval σ (ForInStep Bool) := do
  if holds then
    Eval.clearCounterexample
    pure (.yield acc)
  else
    Eval.recordFrame frame
    pure (.done false)

/-- On to the next combination until the predicate holds. -/
def visitExistential (acc : Bool) (holds : Bool) (_ : Frame) : Eval σ (ForInStep Bool) :=
  pure (if holds then .done true else .yield acc)

/-- Count the combinations for which the predicate holds, until there are two. -/
def visitUnique (count : Nat) (holds : Bool) (_ : Frame) : Eval σ (ForInStep Nat) :=
  let count := if holds then count + 1 else count
  pure (if 1 < count then .done count else .yield count)

/-- The answer of a quantification in a context. -/
def evaluate (q : Quantifier) (bindings : List (Binding σ)) (predicate : Context → Eval σ Value)
    (env : Context) : Eval σ Bool :=
  match q with
  | .universal => do
    let holds ← scan q bindings env predicate true visitUniversal true
    if holds then
      Eval.clearCounterexample
    pure holds
  | .existential => do
    let mark ← Eval.counterexampleSize
    let found ← scan q bindings env predicate false visitExistential false
    Eval.truncateCounterexample mark
    pure found
  | .unique => do
    let mark ← Eval.counterexampleSize
    let count ← scan q bindings env predicate false visitUnique 0
    Eval.truncateCounterexample mark
    pure (count == 1)

end Quantifier

end BoundedLogic
