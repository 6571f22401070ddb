import BoundedLogic.Evaluation.Counterexample
import BoundedLogic.Json.Basic
import BoundedLogic.Numeric.Decimal

set_option relaxedAutoImplicit false
set_option autoImplicit false

/-!
# Reports

What became of an obligation is reported on one line of text or as a JSON object; the reports of a
batch are counted and joined to a summary.

## Main definitions

* `BoundedLogic.Outcome` — what became of an obligation.
* `BoundedLogic.Report`, `BoundedLogic.Report.text`, `BoundedLogic.Report.toJson` — one report.
* `BoundedLogic.Summary`, `BoundedLogic.Summary.text`, `BoundedLogic.Summary.jsonText` — the
  reports of a batch.
-/

namespace BoundedLogic

/-- What became of an obligation. -/
inductive Outcome where
  /-- It was found true. -/
  | passed
  /-- It was found false, for the given values of the given names. -/
  | failed (counterexample : List (String × String))
  /-- It was not evaluated. -/
  | unchecked
  /-- Its evaluation failed. -/
  | error (message : String)
  /-- Its evaluation was told to stop. -/
  | interrupted
  deriving DecidableEq, Repr, Inhabited

namespace Outcome

/-- The outcome of an obligation with a counterexample. -/
def ofCounterexample (c : Counterexample) : Outcome :=
  .failed c.bindings

/-- Was the obligation found true? -/
def isPassed : Outcome → Bool
  | .passed => true
  | _ => false

/-- One value of a counterexample as a JSON object. -/
def assignmentJson (b : String × String) : Json :=
  .object [("name", .string b.1), ("value", .string b.2)]

/-- The members by which an outcome is written in JSON. -/
def jsonMembers : Outcome → List (String × Json)
  | .passed => [("status", .string "passed")]
  | .failed bs =>
    [("status", .string "failed"), ("counterexample", .array (bs.map assignmentJson))]
  | .unchecked => [("status", .string "unchecked")]
  | .error message => [("status", .string "error"), ("message", .string message)]
  | .interrupted => [("status", .string "interrupted")]

/-- An outcome as a JSON object. -/
def toJson (o : Outcome) : Json :=
  .object o.jsonMembers

end Outcome

/-- What is reported of an obligation. -/
structure Report where
  /-- The number of the obligation. -/
  number : Nat
  /-- What the obligation is for. -/
  kind : String
  /-- What became of it. -/
  outcome : Outcome
  /-- The time its evaluation took, in seconds. -/
  seconds : Binary64 := ⟨0⟩
  /-- The texts of its bindings for which there was no range. -/
  missingRanges : List String := []
  deriving DecidableEq, Repr

namespace Report

/-- A time in seconds, from nanoseconds: the whole seconds and the rest, each as a real, added. -/
def secondsOf (nanoseconds : Nat) : Binary64 :=
  (Binary64.ofNat (nanoseconds / Nat.pow 10 9)).addUnsigned
    (Binary64.ofRatio (nanoseconds % Nat.pow 10 9) (Nat.pow 10 9))

/-- The report with the time taken. -/
def withElapsed (r : Report) (nanoseconds : Nat) : Report :=
  { r with seconds := secondsOf nanoseconds }

/-- The part of the text that shows a counterexample, if it has any values. -/
def counterexampleText : List (String × String) → String
  | [] => ""
  | bs => ": Counterexample: " ++ commaSeparated (bs.map Frame.bindingText)

/-- A report on one line. Times are shown with three decimal places. -/
def text (r : Report) : String :=
  let number := "PO# " ++ Nat.repr r.number
  let time := " in " ++ r.seconds.fixedText 3 ++ "s"
  match r.outcome with
  | .passed => number ++ ", PASSED" ++ time
  | .failed bs => number ++ ", FAILED" ++ time ++ counterexampleText bs
  | .unchecked => number ++ ", UNCHECKED"
  | .error message => number ++ ", Error: " ++ message
  | .interrupted => number ++ ", INTERRUPTED"

/-- A report as a JSON object. The missing ranges are left out when there are none. -/
def toJson (r : Report) : Json :=
  .object ([("number", .ofNat r.number), ("kind", .string r.kind)] ++ r.outcome.jsonMembers ++
    [("seconds", match r.seconds.compactText? with
      | some text => .number text
      | none => .null)] ++
    if r.missingRanges.isEmpty then [] else [("missing_ranges", .ofStrings r.missingRanges)])

end Report

/-- The reports of a batch of obligations, counted by outcome. -/
structure Summary where
  /-- The number of reports. -/
  total : Nat
  /-- The number of obligations found true. -/
  passed : Nat
  /-- The number of obligations found false. -/
  failed : Nat
  /-- The number of obligations not evaluated. -/
  unchecked : Nat
  /-- The number of obligations whose evaluation failed. -/
  errors : Nat
  /-- The number of obligations whose evaluation was told to stop. -/
  interrupted : Nat
  /-- The reports. -/
  reports : List Report
  deriving DecidableEq, Repr

namespace Summary

/-- The name and version of the JSON form. -/
def schema : String :=
  "quantor.check.v1"

/-- The summary without reports. -/
def empty : Summary :=
  ⟨0, 0, 0, 0, 0, 0, []⟩

/-- The summary with one outcome more in its counters. -/
def count (s : Summary) : Outcome → Summary
  | .passed => { s with passed := s.passed + 1 }
  | .failed _ => { s with failed := s.failed + 1 }
  | .unchecked => { s with unchecked := s.unchecked + 1 }
  | .error _ => { s with errors := s.errors + 1 }
  | .interrupted => { s with interrupted := s.interrupted + 1 }

/-- The summary of a list of reports. -/
def ofReports (rs : List Report) : Summary :=
  { (rs.foldl (fun s r => s.count r.outcome) empty) with total := rs.length, reports := rs }

/-- Was every obligation that was evaluated found true? -/
def allPassed (s : Summary) : Bool :=
  s.passed + s.unchecked == s.total

/-- The line that gives the counts. Interruptions are left out when there are none. -/
def countsText (s : Summary) : String :=
  Nat.repr s.total ++ " obligations: " ++ Nat.repr s.passed ++ " passed, " ++
    Nat.repr s.failed ++ " failed, " ++ Nat.repr s.unchecked ++ " unchecked, " ++
    Nat.repr s.errors ++ " errors" ++
    if s.interrupted = 0 then "" else ", " ++ Nat.repr s.interrupted ++ " interrupted"

/-- The text of a summary: a line for each report, then the counts. -/
def text (s : Summary) : String :=
  String.join (s.reports.map fun r => r.text ++ "\n") ++ s.countsText

/-- A summary as a JSON object. -/
def toJson (s : Summary) : Json :=
  .object [("schema", .string schema), ("total", .ofNat s.total), ("passed", .ofNat s.passed),
    ("failed", .ofNat s.failed), ("unchecked", .ofNat s.unchecked), ("errors", .ofNat s.errors),
    ("interrupted", .ofNat s.interrupted), ("reports", .array (s.reports.map Report.toJson))]

/-- The JSON text of a summary, one item a line. -/
def jsonText (s : Summary) : String :=
  s.toJson.pretty

end Summary

end BoundedLogic
