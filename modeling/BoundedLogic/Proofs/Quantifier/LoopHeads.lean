import BoundedLogic.Proofs.Quantifier.Scan
import Mathlib.Logic.Relation

set_option relaxedAutoImplicit false
set_option autoImplicit false

/-!
# The loop of a scan

A scan is a loop over the combinations of its bindings. At the head of the loop it looks at the
level; then it passes the next combination over, or asks its predicate and hands the answer to the
visitor, and is at the head again. What becomes of a scan can be read off any of the heads it comes
to, and a scan that fails does so at one of them, or before the first.

## Main definitions

* `BoundedLogic.Quantifier.Head`, `BoundedLogic.Quantifier.Turn` — where a scan stands at the head
  of its loop, and how it gets to the next head.
* `BoundedLogic.Quantifier.visitor`, `BoundedLogic.Quantifier.Tally` — the visitor of a
  quantification of any kind, and what it keeps of the answers.
* `BoundedLogic.Quantifier.ComesTo` — the heads that an evaluation comes to.
* `BoundedLogic.Quantifier.FailsAt` — how a scan can fail at a head.

## Main results

* `BoundedLogic.Quantifier.result_evaluate_of_failsAt` — a quantification whose scan fails at a head
  ends with that failure.
* `BoundedLogic.Quantifier.result_evaluate_eq_error_iff` — a quantification fails in no other way,
  unless its domains cannot be worked out.
-/

namespace BoundedLogic

namespace Quantifier

variable {σ β : Type} {q : Quantifier} {env : Context} {p : Context → Eval σ Value}
  {visit : β → Bool → Frame → Eval σ (ForInStep β)} {config : EngineConfig} {s t : Session σ}
  {e : EvalError}

/-! ### Heads and turns -/

/-- Where a scan stands at the head of its loop. -/
structure Head (σ β : Type) where
  /-- The combinations still to come, consistent or not. -/
  rest : List Match
  /-- What the visitor keeps of the answers so far. -/
  tally : β
  /-- The session. -/
  session : Session σ

/-- One turn of the loop, from one head to the next. Without a terminate an inconsistent combination
is passed over; on any other one the predicate is asked, and the visitor is for going on. -/
inductive Turn (config : EngineConfig) (q : Quantifier) (env : Context)
    (p : Context → Eval σ Value) (visit : β → Bool → Frame → Eval σ (ForInStep β)) :
    Head σ β → Head σ β → Prop
  | passOver {m : Match} {ms : List Match} {acc : β} {s : Session σ}
      (hlevel : s.interrupter.level ≠ .terminating) (hm : m.toFrame? = none) :
      Turn config q env p visit ⟨m :: ms, acc, s⟩ ⟨ms, acc, s⟩
  | ask {m : Match} {ms : List Match} {f : Frame} {acc acc' : β} {holds : Bool}
      {s t u : Session σ} (hlevel : s.interrupter.level ≠ .terminating)
      (hm : m.toFrame? = some f) (hask : (q.ask env p f).result config s = (.ok holds, t))
      (hvisit : (visit acc holds f).result config t = (.ok (.yield acc'), u)) :
      Turn config q env p visit ⟨m :: ms, acc, s⟩ ⟨ms, acc', u⟩

/-- Looking at the level finds out whether it is that of a terminate. -/
lemma terminateRequested_eq_true_iff {i : Interrupter} :
    i.terminateRequested = true ↔ i.level = .terminating := by
  simp [Interrupter.terminateRequested]

/-- The same, where it is not. -/
lemma terminateRequested_eq_false_iff {i : Interrupter} :
    i.terminateRequested = false ↔ i.level ≠ .terminating := by
  simp [Interrupter.terminateRequested]

/-- How a scan can fail at a head: it is cut off by a terminate before the next combination, or
there is no terminate, and asking the predicate on that combination fails. -/
inductive FailsAt (config : EngineConfig) (q : Quantifier) (env : Context)
    (p : Context → Eval σ Value) : Head σ β → EvalError → Session σ → Prop
  | terminate {m : Match} {ms : List Match} {acc : β} {s : Session σ}
      (hlevel : s.interrupter.level = .terminating) :
      FailsAt config q env p ⟨m :: ms, acc, s⟩ .cancelled s
  | ask {m : Match} {ms : List Match} {f : Frame} {acc : β} {s t : Session σ} {e : EvalError}
      (hlevel : s.interrupter.level ≠ .terminating) (hm : m.toFrame? = some f)
      (hask : (q.ask env p f).result config s = (.error e, t)) :
      FailsAt config q env p ⟨m :: ms, acc, s⟩ e t

/-- What a scan comes to from a head. -/
def resultFrom (config : EngineConfig) (q : Quantifier) (env : Context)
    (p : Context → Eval σ Value) (visit : β → Bool → Frame → Eval σ (ForInStep β))
    (h : Head σ β) : Except EvalError β × Session σ :=
  (q.scanList env p visit h.rest h.tally).result config h.session

/-- A scan comes to the same from the next head. -/
lemma Turn.resultFrom_eq {h h' : Head σ β} (hturn : Turn config q env p visit h h') :
    resultFrom config q env p visit h = resultFrom config q env p visit h' := by
  cases hturn with
  | passOver hlevel hm =>
    exact result_scanList_of_none (terminateRequested_eq_false_iff.mpr hlevel) hm _ _
  | ask hlevel hm hask hvisit =>
    rw [resultFrom, result_scanList_of_some (terminateRequested_eq_false_iff.mpr hlevel) hm,
      Eval.result_bind_of_ok hask, Eval.result_bind_of_ok hvisit]
    rfl

/-- A scan comes to the same from every head that it comes to. -/
lemma resultFrom_eq_of_turns {h h' : Head σ β}
    (hturns : Relation.ReflTransGen (Turn config q env p visit) h h') :
    resultFrom config q env p visit h = resultFrom config q env p visit h' := by
  induction hturns with
  | refl => rfl
  | tail _ hturn ih => exact ih.trans hturn.resultFrom_eq

/-- A scan that fails at a head comes to that failure. -/
lemma FailsAt.resultFrom_eq {h : Head σ β} (hfails : FailsAt config q env p h e t)
    (visit : β → Bool → Frame → Eval σ (ForInStep β)) :
    resultFrom config q env p visit h = (.error e, t) := by
  cases hfails with
  | terminate hlevel =>
    exact result_scanList_of_terminating (terminateRequested_eq_true_iff.mpr hlevel) _ _ _
  | ask hlevel hm hask =>
    rw [resultFrom, result_scanList_of_some (terminateRequested_eq_false_iff.mpr hlevel) hm]
    exact Eval.result_bind_of_error hask

/-- A visitor that never fails. -/
def NeverFails (visit : β → Bool → Frame → Eval σ (ForInStep β)) (config : EngineConfig) : Prop :=
  ∀ acc holds f s, ∃ step t, (visit acc holds f).result config s = (.ok step, t)

/-- **A scan that fails** does so at a head that it comes to.

**Proof sketch.** Induction on the combinations still to come. A terminate ends the scan at the
present head, and so does a failure of the predicate. In all other cases in which the scan goes on
there is a turn to a head with one combination less. -/
lemma exists_failsAt_of_resultFrom (hvisit : NeverFails visit config) {h : Head σ β}
    (herror : resultFrom config q env p visit h = (.error e, t)) :
    ∃ h', Relation.ReflTransGen (Turn config q env p visit) h h' ∧ FailsAt config q env p h' e t := by
  obtain ⟨ms, acc, s⟩ := h
  induction ms generalizing acc s with
  | nil => simp [resultFrom, result_scanList_nil] at herror
  | cons m ms ih =>
    by_cases hlevel : s.interrupter.level = .terminating
    · have hcut : FailsAt config q env p (⟨m :: ms, acc, s⟩ : Head σ β) .cancelled s :=
        .terminate hlevel
      obtain ⟨rfl, rfl⟩ : EvalError.cancelled = e ∧ s = t := by
        simpa using (hcut.resultFrom_eq visit).symm.trans herror
      exact ⟨_, .refl, hcut⟩
    · have hgo := terminateRequested_eq_false_iff.mpr hlevel
      have hlater : ∀ {acc' : β} {u : Session σ},
          Turn config q env p visit ⟨m :: ms, acc, s⟩ ⟨ms, acc', u⟩ →
          ∃ h', Relation.ReflTransGen (Turn config q env p visit) ⟨m :: ms, acc, s⟩ h' ∧
            FailsAt config q env p h' e t := by
        intro acc' u hturn
        obtain ⟨h', hturns, hfails⟩ := ih acc' u (hturn.resultFrom_eq.symm.trans herror)
        exact ⟨h', hturns.head hturn, hfails⟩
      cases hm : m.toFrame? with
      | none => exact hlater (.passOver hlevel hm)
      | some f =>
        rcases hask : (q.ask env p f).result config s with ⟨e' | holds, u⟩
        · have hraised : FailsAt config q env p (⟨m :: ms, acc, s⟩ : Head σ β) e' u :=
            .ask hlevel hm hask
          obtain ⟨rfl, rfl⟩ : e' = e ∧ u = t := by
            simpa using (hraised.resultFrom_eq visit).symm.trans herror
          exact ⟨_, .refl, hraised⟩
        · obtain ⟨step, v, hstep⟩ := hvisit acc holds f u
          cases step with
          | yield acc' => exact hlater (.ask hlevel hm hask hstep)
          | done acc' =>
            rw [resultFrom, result_scanList_of_some hgo hm, Eval.result_bind_of_ok hask,
              Eval.result_bind_of_ok hstep] at herror
            simp at herror

/-! ### The scan of a quantification -/

/-- What the visitor of a quantification keeps of the answers. -/
def Tally : Quantifier → Type
  | .universal => Bool
  | .existential => Bool
  | .unique => Nat

/-- The visitor of a quantification. -/
def visitor : (q : Quantifier) → Tally q → Bool → Frame → Eval σ (ForInStep (Tally q))
  | .universal => visitUniversal
  | .existential => visitExistential
  | .unique => visitUnique

/-- What it keeps at first. -/
def firstTally : (q : Quantifier) → Tally q
  | .universal => true
  | .existential => false
  | .unique => Nat.zero

/-- Is the scan of the quantification started with no frame recorded? -/
def startsClear (q : Quantifier) : Bool :=
  q == .universal

/-- The visitors only keep account. -/
lemma neverFails_visitor (q : Quantifier) : NeverFails (visitor (σ := σ) q) config := by
  cases q with
  | universal =>
    intro acc holds f s
    cases holds <;> exact ⟨_, _, rfl⟩
  | existential | unique =>
    intro acc holds f s
    exact ⟨_, _, rfl⟩

/-- A quantification fails as its scan does: what precedes and follows the scan cannot fail. -/
lemma result_evaluate_eq_error_iff_scan {bs : List (Binding σ)} :
    (q.evaluate bs p env).result config s = (.error e, t) ↔
      (q.scan bs env p q.startsClear q.visitor q.firstTally).result config s = (.error e, t) := by
  cases q with
  | universal =>
    rw [evaluate, Eval.result_bind_eq_error_iff]
    constructor
    · rintro (h | ⟨_ | _, u, -, h⟩)
      · exact h
      · simp at h
      · rw [if_pos rfl, Eval.result_bind_of_ok (Eval.result_clearCounterexample ..)] at h
        simp at h
    · exact .inl
  | existential | unique =>
    rw [evaluate, Eval.result_bind_of_ok (Eval.result_counterexampleSize ..),
      Eval.result_bind_eq_error_iff]
    constructor
    · rintro (h | ⟨r, u, -, h⟩)
      · exact h
      · cases hs : s.counterexample with
        | none => simp [hs, Eval.truncateCounterexample] at h
        | some c =>
          rw [hs, Option.map_some,
            Eval.result_bind_of_ok (Eval.result_truncateCounterexample_some ..)] at h
          simp at h
    · exact .inl

/-- The evaluation of a quantification comes to a head: its domains are worked out, and from the
first head, with all combinations still to come, turns of the loop lead there. -/
def ComesTo (config : EngineConfig) (q : Quantifier) (bs : List (Binding σ))
    (p : Context → Eval σ Value) (env : Context) (s : Session σ) (h : Head σ (Tally q)) : Prop :=
  ∃ values t, (Binding.resolveEach config.allowUnresolved env bs).result config s = (.ok values, t) ∧
    Relation.ReflTransGen (Turn config q env p q.visitor)
      ⟨Binding.combinations config.allPossibilities bs values, q.firstTally,
        if q.startsClear then t.forget else t⟩ h

/-- **A quantification whose scan fails at a head** that it comes to ends with that failure. -/
theorem result_evaluate_of_failsAt {bs : List (Binding σ)} {h : Head σ (Tally q)}
    (hcomes : ComesTo config q bs p env s h) (hfails : FailsAt config q env p h e t) :
    (q.evaluate bs p env).result config s = (.error e, t) := by
  obtain ⟨values, u, hbs, hturns⟩ := hcomes
  rw [result_evaluate_eq_error_iff_scan, result_scan_of_ok hbs]
  exact (resultFrom_eq_of_turns hturns).trans (hfails.resultFrom_eq _)

/-- **A quantification fails** exactly if some domain cannot be worked out, or its scan fails at a
head that it comes to. -/
theorem result_evaluate_eq_error_iff {bs : List (Binding σ)} :
    (q.evaluate bs p env).result config s = (.error e, t) ↔
      (Binding.resolveEach config.allowUnresolved env bs).result config s = (.error e, t) ∨
        ∃ h, ComesTo config q bs p env s h ∧ FailsAt config q env p h e t := by
  rcases hbs : (Binding.resolveEach config.allowUnresolved env bs).result config s with
    ⟨e' | values, u⟩
  · rw [result_evaluate_eq_error_iff_scan, result_scan_of_error hbs]
    simp [ComesTo, hbs]
  · constructor
    · intro herror
      rw [result_evaluate_eq_error_iff_scan, result_scan_of_ok hbs] at herror
      obtain ⟨h, hturns, hfails⟩ := exists_failsAt_of_resultFrom (neverFails_visitor q)
        (h := ⟨_, q.firstTally, if q.startsClear then u.forget else u⟩) herror
      exact .inr ⟨h, ⟨values, u, hbs, hturns⟩, hfails⟩
    · rintro (herror | ⟨h, hcomes, hfails⟩)
      · simp at herror
      · exact result_evaluate_of_failsAt hcomes hfails

end Quantifier

end BoundedLogic
