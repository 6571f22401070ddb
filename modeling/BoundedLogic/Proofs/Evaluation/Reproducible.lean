import BoundedLogic.Proofs.Evaluation.InStep

set_option relaxedAutoImplicit false
set_option autoImplicit false

/-!
# Reproducible evaluations

Of a session the engine reads the level, with the replies the controller has for a wait, and the
recorded frames. The state of the host is the host's own business, and the log of events is never
read. So if what the host computes does not depend on these two, neither does any evaluation: it
ends in the same way wherever it is repeated, whatever went on there before.

## Main definitions

* `BoundedLogic.Session.Alike` — sessions that differ only in the state of the host and in the log.
* `BoundedLogic.Eval.Reproducible` — an evaluation that cannot tell such sessions apart.

## Main results

* `BoundedLogic.Eval.keptByEngine_reproducible` — what the engine puts together from reproducible
  evaluations is reproducible.
-/

namespace BoundedLogic

variable {σ : Type}

/-! ### Sessions that look alike -/

/-- The interrupters have the same level and the same replies to come. Their logs may differ. -/
structure Interrupter.Alike (i i' : Interrupter) : Prop where
  /-- The level. -/
  level_eq : i.level = i'.level
  /-- The replies to waits. -/
  replies_eq : i.replies = i'.replies

namespace Interrupter.Alike

variable {i i' : Interrupter}

/-- A command has the same effect on both. -/
lemma send (h : i.Alike i') (c : Command) : (i.send c).Alike (i'.send c) := by
  cases c with
  | pause | reset | terminate => exact ⟨rfl, h.replies_eq⟩
  | resume =>
    rw [Interrupter.send, Interrupter.send, h.level_eq]
    by_cases hpaused : i'.level = .paused
    · rw [if_pos hpaused, if_pos hpaused]
      exact ⟨rfl, h.replies_eq⟩
    · rw [if_neg hpaused, if_neg hpaused]
      exact h

/-- With the same replies left they are alike again. -/
lemma withReplies (h : i.Alike i') (cs : List Command) :
    { i with replies := cs }.Alike { i' with replies := cs } :=
  ⟨h.level_eq, rfl⟩

/-- The replies to a wait have the same effect on both. -/
lemma unblock (h : i.Alike i') (cs : List Command) :
    (Interrupter.unblock cs i).Alike (Interrupter.unblock cs i') := by
  induction cs generalizing i i' with
  | nil => exact (h.withReplies []).send .terminate
  | cons c cs ih =>
    have hsend := (h.withReplies cs).send c
    simp only [Interrupter.unblock]
    rw [hsend.level_eq]
    split
    case isTrue => exact ih hsend
    case isFalse => exact hsend

/-- An enumeration gets the same answer from both. -/
lemma shouldTerminate (h : i.Alike i') (reason : String) :
    (i.shouldTerminate reason).1 = (i'.shouldTerminate reason).1 ∧
      (i.shouldTerminate reason).2.Alike (i'.shouldTerminate reason).2 := by
  have hemit : (i.emit (.paused reason)).Alike (i'.emit (.paused reason)) :=
    ⟨h.level_eq, h.replies_eq⟩
  have hwait : (i.wait reason).Alike (i'.wait reason) := by
    rw [Interrupter.wait, Interrupter.wait, h.level_eq, h.replies_eq]
    split
    case isTrue => exact hemit.unblock _
    case isFalse => exact h
  rw [Interrupter.shouldTerminate, Interrupter.shouldTerminate, h.level_eq]
  cases i'.level with
  | running | terminating => exact ⟨rfl, h⟩
  | paused => exact ⟨congrArg (· == Level.terminating) hwait.level_eq, hwait⟩

end Interrupter.Alike

/-- The sessions differ at most in the state of the host and in the log of events. -/
structure Session.Alike (s s' : Session σ) : Prop where
  /-- The interrupters differ at most in their logs. -/
  interrupter : s.interrupter.Alike s'.interrupter
  /-- The same frames are recorded. -/
  counterexample_eq : s.counterexample = s'.counterexample
  /-- If the first counterexample has been withdrawn, it holds the same. -/
  withdrawn_eq : s.withdrawn = s'.withdrawn

/-- Whoever gave a counterexample finds the same in it. -/
lemma Session.Alike.firstCounterexample_eq {s s' : Session σ} (h : s.Alike s') :
    s.firstCounterexample = s'.firstCounterexample := by
  rw [firstCounterexample, firstCounterexample, h.counterexample_eq, h.withdrawn_eq]

namespace Eval

variable {α β : Type}

/-- The evaluation ends in the same way in sessions that look alike, and leaves sessions that look
alike: it is in step with itself. -/
def Reproducible (x : Eval σ α) : Prop :=
  ∀ config s s', s.Alike s' →
    ∃ r t t', x.result config s = (r, t) ∧ x.result config s' = (r, t') ∧ t.Alike t'

/-! ### Sequences -/

lemma reproducible_pure (a : α) : Reproducible (pure a : Eval σ α) :=
  inStep_pure a

lemma reproducible_throw (e : EvalError) : Reproducible (throw e : Eval σ α) :=
  inStep_throw e

/-- Two evaluations in sequence. -/
lemma Reproducible.bind {x : Eval σ α} {f : α → Eval σ β} (hx : Reproducible x)
    (hf : ∀ a, Reproducible (f a)) : Reproducible (x >>= f) :=
  InStep.bind hx hf

/-- No scan sees the state of the host or the log. -/
lemma unseenByScans_alike : Session.UnseenByScans (@Session.Alike σ) where
  terminating_iff h := by rw [h.interrupter.level_eq]
  counterexample_eq h := h.counterexample_eq
  withCounterexample h _ := ⟨h.interrupter, rfl, h.withdrawn_eq⟩

/-- An enumeration of subsets gets the same answer in both. -/
lemma run_shouldTerminate_alike (reason : String) (s s' : Session σ) (h : s.Alike s') :
    ((shouldTerminate reason).run s).1 = ((shouldTerminate reason).run s').1 ∧
      ((shouldTerminate reason).run s).2.Alike ((shouldTerminate reason).run s').2 := by
  obtain ⟨hanswer, hi⟩ := h.interrupter.shouldTerminate reason
  exact ⟨hanswer, hi, h.counterexample_eq, h.withdrawn_eq⟩

/-- **The engine keeps evaluations reproducible**: by itself it reads no more of a session than the
level, the replies and the recorded frames. -/
theorem keptByEngine_reproducible : KeptByEngine fun _ (x : Eval σ _) => x.Reproducible where
  pure := reproducible_pure
  throw := reproducible_throw
  bind := Reproducible.bind
  rethrow := fun report => InStep.rethrow report
  restoring := unseenByScans_alike.restoring
  read := inStep_read
  terminateRequested := unseenByScans_alike.terminateRequested
  modifyCounterexample := unseenByScans_alike.modifyCounterexample
  evalPowerSet := inStep_evalPowerSet run_shouldTerminate_alike

end Eval

end BoundedLogic
