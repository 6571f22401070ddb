import BoundedLogic.Checking.Checker
import BoundedLogic.Proofs.Evaluation.Closure
import BoundedLogic.Proofs.Evaluation.Exchange
import Mathlib.Data.List.Basic

set_option relaxedAutoImplicit false
set_option autoImplicit false

/-!
# Checking as evaluation

While an obligation is checked its bindings are overridden with the ranges for them. This comes to
the same as if each binding with a range were written over the range as a literal set: checking is
the evaluation of the obligation rewritten in this way, and the outcome is read off from how that
evaluation ends.

## Main definitions

* `BoundedLogic.Checker.substituteRange` — a binding, written over the range for it.
* `BoundedLogic.Outcome.Describes` — an outcome that says how an evaluation ended.

## Main results

* `BoundedLogic.Checker.check_describes_substituted` — the outcome of a check is that of the
  evaluation of the rewritten obligation, and the bindings without a range are listed.
-/

namespace BoundedLogic

variable {σ : Type}

/-! ### Ranges in place of domains -/

/-- Patterns over the elements of a literal set. -/
def Binding.overSet (ps : List Pattern) (vs : ValueSet) : Binding σ where
  patterns := ps
  kind := .inSet
  domain := .value vs.toValue

/-- A binding overridden with a set of values can stand for its patterns over this set. -/
lemma Binding.interchangeable_override (b : Binding σ) (vs : ValueSet) :
    Interchangeable (b.override vs) (.overSet b.patterns vs) :=
  .of_values rfl (fun _ _ => rfl) fun _ _ => rfl

namespace Checker

variable (c : Checker)

/-- The binding over the range for it as a literal set, if there is one. Any other binding is left
as it is. -/
def substituteRange (b : Binding σ) : Binding σ :=
  match c.ranges.get? b.text with
  | some range => .overSet b.patterns range
  | none => b

/-- What becomes of a binding in a check can stand for the binding over its range. -/
lemma interchangeable_applyRange (b : Binding σ) :
    Binding.Interchangeable (c.applyRange b) (c.substituteRange b) := by
  rw [applyRange, substituteRange]
  cases c.ranges.get? b.text with
  | some range => exact b.interchangeable_override range
  | none => exact .refl b

end Checker

/-! ### Bindings without a range -/

/-- A range table contains a text exactly if there is a range under it. -/
lemma RangeTable.contains_eq_isSome (t : RangeTable) (text : String) :
    t.contains text = (t.get? text).isSome := by
  rw [contains, get?, Option.isSome_map, Bool.eq_iff_iff, List.any_eq_true, List.find?_isSome]

/-- Of the elements of a list that are kept, each once, those met first come first. -/
lemma pairwise_idxOf_eraseDups_filter {α : Type} [DecidableEq α] (l : List α) (keep : α → Bool) :
    (l.filter keep).eraseDups.Pairwise fun x y => l.idxOf x < l.idxOf y := by
  induction l generalizing keep with
  | nil => exact .nil
  | cons a l ih =>
    -- Whatever else is kept comes after `a`, so its place is one further on than in `l`.
    have hlater : ∀ {keep : α → Bool}, (∀ x ∈ l, keep x = true → x ≠ a) →
        (l.filter keep).eraseDups.Pairwise fun x y => (a :: l).idxOf x < (a :: l).idxOf y := by
      intro keep hkeep
      refine (ih keep).imp_of_mem fun hx hy hxy => ?_
      rw [List.mem_eraseDups, List.mem_filter] at hx hy
      rw [List.idxOf_cons_ne _ (hkeep _ hx.1 hx.2).symm,
        List.idxOf_cons_ne _ (hkeep _ hy.1 hy.2).symm]
      exact Nat.succ_lt_succ hxy
    cases ha : keep a with
    | false =>
      rw [List.filter_cons_of_neg (by simp [ha])]
      exact hlater fun x _ hx => by
        rintro rfl
        rw [ha] at hx
        cases hx
    | true =>
      rw [List.filter_cons_of_pos ha, List.eraseDups_cons, List.filter_filter]
      refine List.pairwise_cons.mpr ⟨fun y hy => ?_, hlater fun x _ hx => by simp_all⟩
      have hya : y ≠ a := by
        rw [List.mem_eraseDups, List.mem_filter] at hy
        simp_all
      rw [List.idxOf_cons_self, List.idxOf_cons_ne _ hya.symm]
      exact Nat.succ_pos _

namespace Checker

variable (c : Checker)

/-- A text is missing if some binding has it and there is no range for it. -/
lemma mem_missingRanges_iff {o : Obligation σ} {text : String} :
    text ∈ c.missingRanges o ↔
      (∃ b ∈ o.reachableBindings, b.text = text) ∧ c.ranges.get? text = none := by
  rw [missingRanges, List.mem_eraseDups, List.mem_filter, List.mem_map,
    RangeTable.contains_eq_isSome]
  simp

end Checker

/-! ### Checks -/

/-- The outcome says how an evaluation ended that left the given counterexample. -/
structure Outcome.Describes (outcome : Outcome) (answer : Except EvalError Bool)
    (counterexample : Counterexample) : Prop where
  /-- The obligation passed exactly if it was found true. -/
  passed_iff : outcome = .passed ↔ answer = .ok true
  /-- It failed exactly if it was found false, and then for the values in the recorded frames. -/
  failed_iff : ∀ bs, outcome = .failed bs ↔ answer = .ok false ∧ bs = counterexample.bindings
  /-- It was interrupted exactly if the evaluation was told to stop. -/
  interrupted_iff : outcome = .interrupted ↔ ∃ e, answer = .error e ∧ e.isCancelled = true
  /-- Any other failure of the evaluation is an error, with the message of that failure. -/
  error_iff : ∀ message, outcome = .error message ↔
    ∃ e, answer = .error e ∧ e.isCancelled = false ∧ message = e.message

namespace Checker

variable (c : Checker) {o : Obligation σ}

/-- The outcome made from an answer describes it. -/
lemma describes_outcomeOf (counterexample : Counterexample) (answer : Except EvalError Bool) :
    (outcomeOf counterexample answer).Describes answer counterexample := by
  rcases answer with e | _ | _
  · cases he : e.isCancelled with
    | false =>
      simp only [outcomeOf, he]
      exact ⟨by simp, by simp, by simp [he], fun text => by simp [he, eq_comm (a := text)]⟩
    | true =>
      simp only [outcomeOf, he, if_true]
      exact ⟨by simp, by simp, by simp [he], by simp [he]⟩
  · simp only [outcomeOf, Outcome.ofCounterexample]
    exact ⟨by simp, fun bs => by simp [eq_comm (a := bs)], by simp, by simp⟩
  · simp only [outcomeOf]
    exact ⟨by simp, by simp, by simp, by simp⟩

/-- A check of an obligation that is not evaluated only says so. -/
lemma run_check_of_not_isCheckable (ho : o.isCheckable = false) (s : Session σ) :
    (c.check o).run s = (({ number := o.number, kind := o.kind, outcome := .unchecked }, o), s) := by
  rw [check, ho]
  rfl

/-- A check of any other obligation is an evaluation with the ranges in place. -/
lemma run_check_of_isCheckable (ho : o.isCheckable = true) {s t : Session σ}
    {answer : Except EvalError Bool}
    (h : ((o.mapBindings c.applyRange).claim.evaluate (.withFrame "global" c.globals)).result
      c.config.engine (beginning s) = (answer, t)) :
    (c.check o).run s =
      (({ number := o.number, kind := o.kind
          outcome := outcomeOf t.firstCounterexample answer
          missingRanges := c.missingRanges o },
        (o.mapBindings c.applyRange).mapBindings Binding.clearOverride),
        resumed s t) := by
  have hevaluate : (c.evaluate (o.mapBindings c.applyRange).claim).run s =
      ((answer, t.firstCounterexample), resumed s t) := by
    rw [evaluate, StateT.run_bind, StateT.run_get, pure_bind, h]
    rfl
  rw [check, if_pos ho, StateT.run_bind, hevaluate]
  rfl

/-- Putting a range in place leaves the domain of a binding alone. -/
lemma domain_applyRange (b : Binding σ) : (c.applyRange b).domain = b.domain := by
  rw [applyRange]
  cases c.ranges.get? b.text <;> rfl

/-- **The evaluation in a check** has a property that the engine keeps, if what the host computes
for the obligation has it: no range that is put in place concerns the host. -/
lemma kept_evaluate {P : ∀ ⦃α : Type⦄, Eval σ α → Prop} (hP : Eval.KeptByEngine P)
    (h : o.claim.toPredicate.HostSatisfies (@P Value)) (env : Context) :
    P ((o.mapBindings c.applyRange).claim.evaluate env) := by
  have hranged : (o.mapBindings c.applyRange).claim.toPredicate.HostSatisfies (@P Value) :=
    h.mapBindings c.domain_applyRange
  exact hP.quantifier _ hranged.1 (hP.predicate hranged.2)

/-- **Checking with ranges is evaluation of the rewritten obligation.** The outcome of a check says
how the evaluation of the obligation ends, among the global values and with no frame recorded yet,
in which every binding with a range that can be changed is written over the range as a literal set
and all others are left as they are. The missing ranges are the texts of the bindings that can be
changed and have none, each once, in the order in which they are met first. -/
theorem check_describes_substituted (c : Checker) {o : Obligation σ} (ho : o.isCheckable = true)
    (s : Session σ) :
    ∃ answer t,
      ((o.mapBindings c.substituteRange).claim.evaluate (.withFrame "global" c.globals)).result
        c.config.engine (beginning s) = (answer, t) ∧
      ((c.check o).run s).1.1.outcome.Describes answer t.firstCounterexample ∧
      (∀ text, text ∈ ((c.check o).run s).1.1.missingRanges ↔
        (∃ b ∈ o.reachableBindings, b.text = text) ∧ c.ranges.get? text = none) ∧
      ((c.check o).run s).1.1.missingRanges.Pairwise fun text text' =>
        (o.reachableBindings.map Binding.text).idxOf text <
          (o.reachableBindings.map Binding.text).idxOf text' := by
  have hexchange : (o.mapBindings c.applyRange).claim.evaluate (.withFrame "global" c.globals) =
      (o.mapBindings c.substituteRange).claim.evaluate (.withFrame "global" c.globals) :=
    o.claim.evaluate_mapBindings_congr c.interchangeable_applyRange _
  rcases h : ((o.mapBindings c.substituteRange).claim.evaluate
    (.withFrame "global" c.globals)).result c.config.engine (beginning s) with ⟨answer, t⟩
  rw [run_check_of_isCheckable c ho (hexchange ▸ h)]
  exact ⟨answer, t, rfl, describes_outcomeOf _ answer, fun _ => mem_missingRanges_iff c,
    pairwise_idxOf_eraseDups_filter _ _⟩

/-- The obligation `forall x in set {1, 2} & exists y : nat & x = y`. -/
def someYIsX : Obligation Unit where
  number := 1
  kind := "total"
  claim :=
    { quantifier := .universal
      bindings := [.overIntegers ["x"] [1, 2]]
      body := .quantified .existential
        [{ patterns := [.name "y"], kind := .ofType, domain := .type "nat" }]
        (.host fun env => pure (match env.lookup? "x", env.lookup? "y" with
          | some (.int m), some (.int n) => .bool (m == n)
          | _, _ => .nil)) }

/-- A checker with the range `{1}` for `y : nat`. -/
def oneForY : Checker where
  ranges := .insertSet .empty "y : nat" (.ofDistinct [.int 1])

/-- Checked with the range `{1}` for `y`, the obligation fails for `x = 2`, and the range for `x` is
missing. -/
theorem check_describes_substituted_someYIsX :
    someYIsX.isCheckable = true ∧
      ((oneForY.check someYIsX).run (.running [])).1.1.outcome = .failed [("x", "2")] ∧
      ((oneForY.check someYIsX).run (.running [])).1.1.missingRanges = ["x in set \x7b1, 2\x7d"] ∧
      ∃ answer t,
        ((someYIsX.mapBindings oneForY.substituteRange).claim.evaluate
          (.withFrame "global" .empty)).result {} (.running []) = (answer, t) ∧
        ((oneForY.check someYIsX).run (.running [])).1.1.outcome.Describes answer
          t.firstCounterexample ∧
        (∀ text, text ∈ ((oneForY.check someYIsX).run (.running [])).1.1.missingRanges ↔
          (∃ b ∈ someYIsX.reachableBindings, b.text = text) ∧
            oneForY.ranges.get? text = none) ∧
        ((oneForY.check someYIsX).run (.running [])).1.1.missingRanges.Pairwise fun text text' =>
          (someYIsX.reachableBindings.map Binding.text).idxOf text <
            (someYIsX.reachableBindings.map Binding.text).idxOf text' :=
  ⟨rfl, rfl, rfl, check_describes_substituted oneForY rfl (.running [])⟩

end Checker

end BoundedLogic
