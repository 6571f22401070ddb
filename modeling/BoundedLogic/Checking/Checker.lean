import BoundedLogic.Checking.Config
import BoundedLogic.Checking.Obligation
import BoundedLogic.Checking.RangeTable
import BoundedLogic.Checking.Report

set_option relaxedAutoImplicit false
set_option autoImplicit false

/-!
# Checking obligations

An obligation is checked by brute force: every binding for which there is a range is made to draw
its values from that range, and the quantification is evaluated. Afterwards no binding is
overridden. A batch of obligations is checked one by one, or in any other order; the reports stand
in the order of the obligations.

## Main definitions

* `BoundedLogic.Checker` — the settings, the ranges and the global values.
* `BoundedLogic.Checker.check` — one obligation.
* `BoundedLogic.Checker.checkAll`, `BoundedLogic.Checker.checkScheduled`,
  `BoundedLogic.Checker.checkSelected` — a batch of obligations.
-/

namespace BoundedLogic

/-- What obligations are checked with. -/
structure Checker where
  /-- The settings. -/
  config : CheckerConfig := {}
  /-- The ranges that stand in for the domains of bindings. -/
  ranges : RangeTable := .empty
  /-- The values every obligation can refer to. -/
  globals : Frame := .empty
  deriving Inhabited

/-- A checking step. It works on the interrupter and the state of the host. -/
abbrev Checking (σ : Type) (α : Type) : Type :=
  StateM (Session σ) α

namespace Checker

variable {σ : Type}

/-! ### One obligation -/

/-- The binding with its domain overridden by the range for it, if there is one. -/
def applyRange (c : Checker) (b : Binding σ) : Binding σ :=
  match c.ranges.get? b.text with
  | some range => b.override range
  | none => b

/-- The texts of the bindings without a range, each once, in the order of the bindings. -/
def missingRanges (c : Checker) (o : Obligation σ) : List String :=
  ((o.reachableBindings.map Binding.text).filter fun text => !c.ranges.contains text).eraseDups

/-- The session in which the evaluation for a check begins. It is given a counterexample of its own,
in which no frame is recorded yet. -/
def beginning (s : Session σ) : Session σ :=
  { s with counterexample := some .empty, withdrawn := none }

/-- The session after a check in which the evaluation has left the session `t`: what is recorded
goes on as before the check. -/
def resumed (s t : Session σ) : Session σ :=
  { t with counterexample := s.counterexample, withdrawn := s.withdrawn }

/-- The answer of a quantification among the global values, with what the counterexample holds that
was given for it. The counterexample of the session is set aside meanwhile. -/
def evaluate (c : Checker) (q : Quantification σ) :
    Checking σ (Except EvalError Bool × Counterexample) := do
  let outer ← get
  let (answer, s) := (q.evaluate (.withFrame "global" c.globals)).result c.config.engine
    (beginning outer)
  set (resumed outer s)
  pure (answer, s.firstCounterexample)

/-- What became of an obligation, by the answer of its quantification. -/
def outcomeOf (counterexample : Counterexample) : Except EvalError Bool → Outcome
  | .ok true => .passed
  | .ok false => .ofCounterexample counterexample
  | .error e => if e.isCancelled then .interrupted else .error e.message

/-- Check an obligation. The result is its report and the obligation as it is afterwards. -/
def check (c : Checker) (o : Obligation σ) : Checking σ (Report × Obligation σ) := do
  if o.isCheckable then
    let ranged := o.mapBindings c.applyRange
    let (answer, counterexample) ← c.evaluate ranged.claim
    let report : Report :=
      { number := o.number, kind := o.kind, outcome := outcomeOf counterexample answer,
        missingRanges := c.missingRanges o }
    pure (report, ranged.mapBindings Binding.clearOverride)
  else
    pure ({ number := o.number, kind := o.kind, outcome := .unchecked }, o)

/-! ### Batches -/

/-- Check the obligations one by one. -/
def checkInOrder (c : Checker) :
    List (Obligation σ) → Checking σ (List Report × List (Obligation σ))
  | [] => pure ([], [])
  | o :: os => do
    let (r, o) ← c.check o
    let (rs, os) ← c.checkInOrder os
    pure (r :: rs, o :: os)

/-- Check the obligation at a position, and put its report beside it. -/
def checkAt (c : Checker) (slots : List (Obligation σ × Option Report)) (i : Nat) :
    Checking σ (List (Obligation σ × Option Report)) :=
  match slots[i]? with
  | none => pure slots
  | some (o, _) => do
    let (r, o) ← c.check o
    pure (slots.set i (o, some r))

/-- Check the obligations at the positions of a schedule, in its order. The reports stand in the
order of the obligations. -/
def checkScheduled (c : Checker) (schedule : List Nat) (os : List (Obligation σ)) :
    Checking σ (List Report × List (Obligation σ)) := do
  let slots ← schedule.foldlM c.checkAt (os.map fun o => (o, none))
  pure (slots.filterMap Prod.snd, slots.map Prod.fst)

/-- Check the obligations side by side. No order of taking them up is preferred; this is the order
in which they are listed. -/
def checkSideBySide (c : Checker) (os : List (Obligation σ)) :
    Checking σ (List Report × List (Obligation σ)) :=
  c.checkScheduled (List.range os.length) os

/-- Check all obligations, side by side if the configuration says so. -/
def checkAll (c : Checker) (os : List (Obligation σ)) :
    Checking σ (Summary × List (Obligation σ)) := do
  let (rs, os) ← if c.config.parallel then c.checkSideBySide os else c.checkInOrder os
  pure (.ofReports rs, os)

/-- The first of the numbers that no obligation has. -/
def unknownNumber? (os : List (Obligation σ)) (numbers : List Nat) : Option Nat :=
  numbers.find? fun n => !os.any fun o => o.number == n

/-- Check the obligations with the given numbers, in the order of the obligations. -/
def checkNumbered (c : Checker) (numbers : List Nat) :
    List (Obligation σ) → Checking σ (List Report × List (Obligation σ))
  | [] => pure ([], [])
  | o :: os => do
    if numbers.contains o.number then
      let (r, o) ← c.check o
      let (rs, os) ← c.checkNumbered numbers os
      pure (r :: rs, o :: os)
    else
      let (rs, os) ← c.checkNumbered numbers os
      pure (rs, o :: os)

/-- Check the obligations with the given numbers. Nothing is evaluated if no obligation has one of
them. -/
def checkSelected (c : Checker) (os : List (Obligation σ)) (numbers : List Nat) :
    Checking σ (Except CheckError Summary × List (Obligation σ)) :=
  match unknownNumber? os numbers with
  | some number => pure (.error (.unknownObligation number os.length), os)
  | none => do
    let (rs, os) ← c.checkNumbered numbers os
    pure (.ok (.ofReports rs), os)

end Checker

end BoundedLogic
