import BoundedLogic.Proofs.Checking.Substitution
import BoundedLogic.Proofs.Evaluation.Reproducible

set_option relaxedAutoImplicit false
set_option autoImplicit false

/-!
# Checks leave no trace

A check overrides the bindings of an obligation and takes all overrides back, however the evaluation
in between ended. So an obligation without overrides is the same after a check as before. Checks of
the same obligations can then follow one another in any order, with whatever ranges: if what the
host computes is reproducible, each of them reports what it would have reported at first.

## Main definitions

* `BoundedLogic.Obligation.NotOverridden` — no binding that can be overridden is.
* `BoundedLogic.Obligation.Reproducible` — what the host computes for the obligation is
  reproducible.
* `BoundedLogic.CheckCall`, `BoundedLogic.CheckCall.runAll` — one check after another.

## Main results

* `BoundedLogic.CheckCall.checks_leave_no_trace` — checks leave the obligations as they are, and the
  reports of a sequence of checks do not depend on each other.
-/

namespace BoundedLogic

variable {σ : Type}

/-! ### One check -/

namespace Obligation

/-- No binding that can be overridden is overridden. -/
def NotOverridden (o : Obligation σ) : Prop :=
  ∀ b ∈ o.reachableBindings, b.overridden = none

/-- What the host computes for the obligation is reproducible: its predicates and its computed
domains, at every depth. -/
def Reproducible (o : Obligation σ) : Prop :=
  o.claim.toPredicate.HostSatisfies Eval.Reproducible

end Obligation

namespace Checker

variable (c : Checker) {o : Obligation σ}

/-- Taking the override back undoes what putting the range in place did to a binding without one. -/
lemma clearOverride_applyRange {b : Binding σ} (h : b.overridden = none) :
    (c.applyRange b).clearOverride = b := by
  obtain ⟨patterns, kind, domain, overridden⟩ := b
  obtain rfl : overridden = none := h
  rw [applyRange]
  split <;> rfl

/-- **A check leaves its obligation as it is**, however it ends.

**Proof sketch.** Where the obligation is evaluated, the two traversals change every binding that
can be changed into itself, so together they change nothing (`Quantification.mapBindings_eq_self`);
what the evaluation did in between does not matter. -/
lemma obligation_check (h : o.NotOverridden) (s : Session σ) : ((c.check o).run s).1.2 = o := by
  cases ho : o.isCheckable with
  | false => rw [run_check_of_not_isCheckable c ho]
  | true =>
    have hclaim : (o.claim.mapBindings c.applyRange).mapBindings Binding.clearOverride = o.claim := by
      rw [Quantification.mapBindings_mapBindings]
      exact o.claim.mapBindings_eq_self fun b hb => c.clearOverride_applyRange (h b hb)
    rw [run_check_of_isCheckable c ho rfl]
    simp only [Obligation.mapBindings, hclaim]

/-- **A check can be repeated**: if what the host computes is reproducible, a check ends in the same
way wherever it finds the interrupter at the same level, with the same replies to come, and it
leaves the interrupter so. -/
lemma exists_check_of_alike (h : o.Reproducible) {s s' : Session σ}
    (hs : s.interrupter.Alike s'.interrupter) :
    ∃ r t t', (c.check o).run s = (r, t) ∧ (c.check o).run s' = (r, t') ∧
      t.interrupter.Alike t'.interrupter := by
  cases ho : o.isCheckable with
  | false =>
    exact ⟨_, s, s', run_check_of_not_isCheckable c ho s, run_check_of_not_isCheckable c ho s', hs⟩
  | true =>
    have hstart : (beginning s).Alike (beginning s') := ⟨hs, rfl, rfl⟩
    obtain ⟨answer, t, t', ht, ht', halike⟩ := c.kept_evaluate Eval.keptByEngine_reproducible h
      (.withFrame "global" c.globals) c.config.engine _ _ hstart
    refine ⟨_, _, resumed s' t', run_check_of_isCheckable c ho ht, ?_, halike.interrupter⟩
    rw [run_check_of_isCheckable c ho ht', halike.firstCounterexample_eq]

/-- So the report depends on the session only by the level and the replies of the controller. -/
lemma report_check_congr (h : o.Reproducible) {s s' : Session σ}
    (hs : s.interrupter.Alike s'.interrupter) :
    ((c.check o).run s).1.1 = ((c.check o).run s').1.1 := by
  obtain ⟨r, t, t', ht, ht', -⟩ := c.exists_check_of_alike h hs
  rw [ht, ht']

end Checker

/-! ### Sequences of checks -/

/-- One check in a sequence: who checks, which obligation, and what the controller wants of the
checker at that time. -/
structure CheckCall where
  /-- The checker. -/
  checker : Checker
  /-- The interrupter of the checker, as it is when the check begins. -/
  interrupter : Interrupter
  /-- The place of the obligation. -/
  position : Nat

namespace CheckCall

/-- The session in which a call begins: everything but the interrupter is as it was left before. -/
def opening (call : CheckCall) (s : Session σ) : Session σ :=
  { s with interrupter := call.interrupter }

/-- Check the obligation at the place of a call, if there is one. -/
def run (call : CheckCall) (os : List (Obligation σ)) :
    Checking σ (Option Report × List (Obligation σ)) :=
  match os[call.position]? with
  | none => pure (none, os)
  | some o => do
    modify call.opening
    let (r, o) ← call.checker.check o
    pure (some r, os.set call.position o)

/-- Check one obligation after another, each as the check before left it. -/
def runAll : List CheckCall → List (Obligation σ) →
    Checking σ (List (Option Report) × List (Obligation σ))
  | [], os => pure ([], os)
  | call :: calls, os => do
    let (r, os) ← call.run os
    let (rs, os) ← runAll calls os
    pure (r :: rs, os)

/-- The report is that of the check of a fresh obligation by the same checker, wherever that check
begins with an interrupter like that of the call. There is none if the call names no obligation. -/
def ReportsAfresh (os : List (Obligation σ)) (call : CheckCall) (report : Option Report) : Prop :=
  ∀ t : Session σ, t.interrupter.Alike call.interrupter →
    report = os[call.position]?.map fun o => ((call.checker.check o).run t).1.1

variable {os : List (Obligation σ)}

/-- A call without an obligation does nothing. -/
lemma run_of_none {call : CheckCall} (h : os[call.position]? = none) (s : Session σ) :
    (call.run os).run s = ((none, os), s) := by
  rw [run, h]
  rfl

/-- Any other call is a check that begins with the interrupter of the call. -/
lemma run_of_some {call : CheckCall} {o o' : Obligation σ} {r : Report} {s t : Session σ}
    (h : os[call.position]? = some o)
    (hcheck : (call.checker.check o).run (call.opening s) = ((r, o'), t)) :
    (call.run os).run s = ((some r, os.set call.position o'), t) := by
  rw [run, h]
  change (call.checker.check o >>= fun p => pure (some p.1, os.set call.position p.2)).run
    (call.opening s) = _
  rw [StateT.run_bind, hcheck]
  rfl

/-- **One call** leaves the obligations as they are. If what the host computes is reproducible, it
reports what it would have reported at first. -/
lemma run_spec (hos : ∀ o ∈ os, o.NotOverridden) (call : CheckCall) (s : Session σ) :
    ∃ report t, (call.run os).run s = ((report, os), t) ∧
      ((∀ o ∈ os, o.Reproducible) → call.ReportsAfresh os report) := by
  cases hget : os[call.position]? with
  | none =>
    refine ⟨none, s, run_of_none hget s, fun _ _ _ => ?_⟩
    rw [hget, Option.map_none]
  | some o =>
    have ho : o ∈ os := List.mem_of_getElem? hget
    rcases hcheck : (call.checker.check o).run (call.opening s) with ⟨⟨r, o'⟩, t⟩
    obtain rfl : o' = o := by
      have hsame := call.checker.obligation_check (hos o ho) (call.opening s)
      rwa [hcheck] at hsame
    obtain ⟨hlt, hat⟩ := List.getElem?_eq_some_iff.mp hget
    refine ⟨some r, t, ?_, fun hrep u hu => ?_⟩
    · rw [run_of_some hget hcheck, ← hat, List.set_getElem_self]
    · have hopening : u.interrupter.Alike (call.opening s).interrupter := hu
      rw [hget, Option.map_some, call.checker.report_check_congr (hrep o' ho) hopening, hcheck]

/-- **Any sequence of calls** does the same, by induction on the calls. -/
lemma runAll_spec (hos : ∀ o ∈ os, o.NotOverridden) (calls : List CheckCall) (s : Session σ) :
    ∃ reports t, (runAll calls os).run s = ((reports, os), t) ∧
      ((∀ o ∈ os, o.Reproducible) → List.Forall₂ (ReportsAfresh os) calls reports) := by
  induction calls generalizing s with
  | nil => exact ⟨[], s, rfl, fun _ => .nil⟩
  | cons call calls ih =>
    obtain ⟨report, u, hrun, hreport⟩ := run_spec hos call s
    obtain ⟨reports, t, hruns, hreports⟩ := ih u
    refine ⟨report :: reports, t, ?_, fun hrep => .cons (hreport hrep) (hreports hrep)⟩
    rw [runAll, StateT.run_bind, hrun]
    change (runAll calls os >>= fun p => pure (report :: p.1, p.2)).run u = _
    rw [StateT.run_bind, hruns]
    rfl

/-- **Checks leave no trace.** A check of an obligation without overrides leaves it as it is,
whoever checks it and however the check ends. So does any sequence of checks of some obligations, by
any checkers and in any order; and if what the host computes for them is reproducible, each check
in the sequence reports what it would have reported on the fresh obligation, with the interrupter
at the same level. -/
theorem checks_leave_no_trace (hos : ∀ o ∈ os, o.NotOverridden) :
    (∀ o ∈ os, ∀ (c : Checker) (s : Session σ), ((c.check o).run s).1.2 = o) ∧
      ∀ (calls : List CheckCall) (s : Session σ), ∃ reports t,
        (runAll calls os).run s = ((reports, os), t) ∧
        ((∀ o ∈ os, o.Reproducible) → List.Forall₂ (ReportsAfresh os) calls reports) :=
  ⟨fun o ho c => c.obligation_check (hos o ho), runAll_spec hos⟩

/-- A check with the range for `y`, one without ranges that is told to stop, and the first one
again. -/
def callsForY : List CheckCall :=
  [⟨Checker.oneForY, {}, 0⟩, ⟨{}, { level := .terminating }, 0⟩, ⟨Checker.oneForY, {}, 0⟩]

/-- The second of these checks is interrupted, and the third one reports what the first one did. -/
theorem checks_leave_no_trace_callsForY :
    (∀ o ∈ [Checker.someYIsX], o.NotOverridden) ∧ (∀ o ∈ [Checker.someYIsX], o.Reproducible) ∧
      (((runAll callsForY [Checker.someYIsX]).run (.running [])).1.1.map fun report =>
        report.map Report.outcome) =
          [some (.failed [("x", "2")]), some .interrupted, some (.failed [("x", "2")])] ∧
      (∀ o ∈ [Checker.someYIsX], ∀ (c : Checker) (s : Session Unit),
        ((c.check o).run s).1.2 = o) ∧
      ∃ reports t, (runAll callsForY [Checker.someYIsX]).run (.running []) =
          ((reports, [Checker.someYIsX]), t) ∧
        List.Forall₂ (ReportsAfresh [Checker.someYIsX]) callsForY reports := by
  have hos : ∀ o ∈ [Checker.someYIsX], o.NotOverridden := by
    simp [Obligation.NotOverridden, Obligation.reachableBindings, Quantification.reachableBindings,
      Predicate.reachableBindings, Checker.someYIsX, Binding.overIntegers]
  have hrep : ∀ o ∈ [Checker.someYIsX], o.Reproducible := by
    simp [Obligation.Reproducible, Quantification.toPredicate, Predicate.HostSatisfies,
      Domain.HostSatisfies, Checker.someYIsX, Binding.overIntegers, Eval.reproducible_pure]
  obtain ⟨hcheck, hcalls⟩ := checks_leave_no_trace hos
  obtain ⟨reports, t, hrun, hreports⟩ := hcalls callsForY (.running [])
  exact ⟨hos, hrep, rfl, hcheck, reports, t, hrun, hreports hrep⟩

end CheckCall

end BoundedLogic
