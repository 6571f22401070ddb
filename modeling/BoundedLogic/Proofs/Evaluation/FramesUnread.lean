import BoundedLogic.Proofs.Evaluation.InStep

set_option relaxedAutoImplicit false
set_option autoImplicit false

/-!
# Evaluations that do not read the recorded frames

The engine writes the recorded frames and counts them, but nothing that it decides depends on them:
they are recorded for the reader. So if what the host computes does not depend on them either, then
no evaluation does. It ends in the same way with any frames recorded, and where none are wanted at
all, and it does the same to the rest of the session.

## Main definitions

* `BoundedLogic.Session.AlikeButForFrames` — sessions that may differ in the recorded frames, and in
  what the host may remember of them.
* `BoundedLogic.Eval.IgnoresFrames` — an evaluation that cannot tell such sessions apart.

## Main results

* `BoundedLogic.Eval.keptByEngine_ignoresFrames` — what the engine puts together from evaluations
  that ignore the recorded frames ignores them as well.
-/

namespace BoundedLogic

variable {σ α : Type} {H : σ → σ → Prop} {s s' : Session σ}

/-- The sessions may differ in the recorded frames, in whether any are wanted, and in what has been
withdrawn. The states of the host may differ as far as `H` allows it. -/
structure Session.AlikeButForFrames (H : σ → σ → Prop) (s s' : Session σ) : Prop where
  /-- The interrupter is the same. -/
  interrupter_eq : s.interrupter = s'.interrupter
  /-- The states of the host are as alike as they have to be. -/
  host : H s.host s'.host

namespace Session.AlikeButForFrames

/-- Whatever is recorded in each of them, the sessions remain alike. -/
lemma withCounterexamples (h : AlikeButForFrames H s s') (c c' : Option Counterexample) :
    AlikeButForFrames H { s with counterexample := c } { s' with counterexample := c' } :=
  ⟨h.interrupter_eq, h.host⟩

/-- The frames may be forgotten in both sessions, in one or in none. -/
lemma forgetIf (h : AlikeButForFrames H s s') (clear clear' : Bool) :
    AlikeButForFrames H (if clear then s.forget else s) (if clear' then s'.forget else s') := by
  cases clear <;> cases clear' <;> exact h.withCounterexamples _ _

/-- Looking at the level gives the same in both. -/
lemma terminateRequested_eq (h : AlikeButForFrames H s s') :
    s.interrupter.terminateRequested = s'.interrupter.terminateRequested :=
  congrArg Interrupter.terminateRequested h.interrupter_eq

end Session.AlikeButForFrames

namespace Eval

open Session

/-- The evaluation is in step with itself whatever frames are recorded. -/
def IgnoresFrames (H : σ → σ → Prop) (x : Eval σ α) : Prop :=
  InStep (AlikeButForFrames H) x x

/-- In both of two runs the frames are cut back to the number there was, though that may not be the
same number. -/
lemma EndAlike.restoring {config : EngineConfig} {x y : Eval σ α}
    (h : EndAlike (AlikeButForFrames H) config x s y s') :
    EndAlike (AlikeButForFrames H) config x.restoring s y.restoring s' := by
  obtain ⟨r, t, t', hs, hs', ht⟩ := h
  obtain ⟨c, hc⟩ := exists_result_restoring x config s
  obtain ⟨c', hc'⟩ := exists_result_restoring y config s'
  rw [hs] at hc
  rw [hs'] at hc'
  exact ⟨r, _, _, hc, hc', ht.withCounterexamples c c'⟩

/-- An enumeration of subsets gets the same answer, and the same reply to a wait. -/
lemma run_shouldTerminate_alikeButForFrames (reason : String) (s s' : Session σ)
    (h : AlikeButForFrames H s s') :
    ((shouldTerminate reason).run s).1 = ((shouldTerminate reason).run s').1 ∧
      AlikeButForFrames H ((shouldTerminate reason).run s).2
        ((shouldTerminate reason).run s').2 := by
  obtain ⟨interrupter, counterexample, host, withdrawn⟩ := s
  obtain ⟨rfl, hhost⟩ := h
  exact ⟨rfl, rfl, hhost⟩

/-- **The engine ignores the recorded frames**: where it measures them, it only cuts them back. -/
theorem keptByEngine_ignoresFrames (H : σ → σ → Prop) :
    KeptByEngine fun _ (x : Eval σ _) => x.IgnoresFrames H where
  pure := inStep_pure
  throw := inStep_throw
  bind hx hf := InStep.bind hx hf
  rethrow report _ hx := InStep.rethrow report hx
  restoring hx config s s' h := (hx config s s' h).restoring
  read := inStep_read
  terminateRequested := fun config s s' h =>
    ⟨_, s, s', rfl, by rw [result_terminateRequested, h.terminateRequested_eq], h⟩
  modifyCounterexample f config s s' h :=
    ⟨.ok (), _, _, rfl, rfl, h.withCounterexamples _ _⟩
  evalPowerSet := inStep_evalPowerSet run_shouldTerminate_alikeButForFrames

end Eval

end BoundedLogic
