import BoundedLogic.Proofs.Evaluation.FramesUnread
import BoundedLogic.Proofs.Quantifier.Calls

set_option relaxedAutoImplicit false
set_option autoImplicit false

/-!
# Scans in lock-step

Two scans over the same combinations, with visitors that keep their accounts in different ways, go
in lock-step if from accounts that translate into each other, one call of the predicate and of the
visitor leads to such accounts again, or ends both scans. Then they end with accounts that translate
into each other, or with the same failure, and they make the same calls. The recorded frames may be
different all along.

## Main definitions

* `BoundedLogic.Eval.Translates` — an evaluation ends as another one does, with its value
  translated.
* `BoundedLogic.Quantifier.AdvanceInStep` — one call in lock-step.

## Main results

* `BoundedLogic.Quantifier.AdvanceInStep.evaluate`, `BoundedLogic.Quantifier.AdvanceInStep.trace` —
  quantifications whose calls are in lock-step end with answers that translate into each other, and
  make the same calls.
-/

namespace BoundedLogic

variable {σ : Type} {config : EngineConfig}

namespace Eval

variable {α β γ δ : Type} {R : Session σ → Session σ → Prop} {s s' : Session σ}

/-- The second evaluation ends as the first one does, with the value translated, and the sessions
they leave are related. -/
def Translates (f : α → β) (R : Session σ → Session σ → Prop) (config : EngineConfig) (x : Eval σ α)
    (s : Session σ) (y : Eval σ β) (s' : Session σ) : Prop :=
  ∃ r t t', x.result config s = (r, t) ∧ y.result config s' = (r.map f, t') ∧ R t t'

/-- Values. -/
lemma translates_pure {f : α → β} {a : α} {b : β} (hb : f a = b) (h : R s s') :
    Translates f R config (pure a) s (pure b) s' :=
  ⟨.ok a, s, s', rfl, by rw [result_pure, Except.map, hb], h⟩

/-- Evaluations that end in the same way. -/
lemma EndAlike.translates {x y : Eval σ α} (h : EndAlike R config x s y s') :
    Translates id R config x s y s' := by
  obtain ⟨r, t, t', hs, hs', ht⟩ := h
  exact ⟨r, t, t', hs, by rw [hs', Except.map_id, id], ht⟩

/-- Sequences of two evaluations, from given sessions. -/
lemma Translates.bind {f : α → β} {g : γ → δ} {x : Eval σ α} {y : Eval σ β} {k : α → Eval σ γ}
    {k' : β → Eval σ δ} (hx : Translates f R config x s y s')
    (hk : ∀ a t t', R t t' → Translates g R config (k a) t (k' (f a)) t') :
    Translates g R config (x >>= k) s (y >>= k') s' := by
  obtain ⟨r, t, t', hs, hs', ht⟩ := hx
  cases r with
  | error e => exact ⟨.error e, t, t', result_bind_of_error hs, result_bind_of_error hs', ht⟩
  | ok a =>
    rw [Translates, result_bind_of_ok hs, result_bind_of_ok hs']
    exact hk a t t' ht

end Eval

namespace Quantifier

open Eval Session

variable {H : σ → σ → Prop} {q q' : Quantifier} {env : Context} {p p' : Context → Eval σ Value}
  {translate : Tally q → Tally q'} {s s' : Session σ}

/-- A step of a loop with the account translated. -/
def mapStep {β β' : Type} (f : β → β') : ForInStep β → ForInStep β'
  | .done acc => .done (f acc)
  | .yield acc => .yield (f acc)

/-- From accounts that translate into each other, the calls of both predicates on a frame, and then
of the visitors, end both scans or none of them, with accounts that translate into each other. -/
def AdvanceInStep (H : σ → σ → Prop) (config : EngineConfig) (q q' : Quantifier) (env : Context)
    (p p' : Context → Eval σ Value) (translate : Tally q → Tally q') : Prop :=
  ∀ acc f s s', AlikeButForFrames H s s' →
    Translates (mapStep translate) (AlikeButForFrames H) config (q.advance env p q.visitor acc f) s
      (q'.advance env p' q'.visitor (translate acc) f) s'

namespace AdvanceInStep

variable (hadvance : AdvanceInStep H config q q' env p p' translate)

include hadvance

/-! ### Scans over combinations -/

/-- The scans end with accounts that translate into each other. Induction on the combinations. -/
lemma scanList (ms : List Match) (acc : Tally q) (h : AlikeButForFrames H s s') :
    Translates translate (AlikeButForFrames H) config (q.scanList env p q.visitor ms acc) s
      (q'.scanList env p' q'.visitor ms (translate acc)) s' := by
  induction ms generalizing acc s s' with
  | nil => exact translates_pure rfl h
  | cons m ms ih =>
    cases hs : s.interrupter.terminateRequested with
    | true =>
      have hs' := h.terminateRequested_eq.symm.trans hs
      exact ⟨_, s, s', result_scanList_of_terminating hs _ _ _,
        result_scanList_of_terminating hs' _ _ _, h⟩
    | false =>
      have hs' := h.terminateRequested_eq.symm.trans hs
      cases hm : m.toFrame? with
      | none =>
        rw [Translates, result_scanList_of_none hs hm, result_scanList_of_none hs' hm]
        exact ih acc h
      | some f =>
        rw [Translates, result_scanList_of_some_advance hs hm,
          result_scanList_of_some_advance hs' hm]
        refine (hadvance acc f s s' h).bind fun step t t' ht => ?_
        cases step with
        | done acc' => exact translates_pure rfl ht
        | yield acc' => exact ih acc' ht

/-- The scans make the same calls. -/
lemma traceFrom {γ : Type} {contribution contribution' : Frame → Session σ → List γ}
    (hsame : ∀ f s s', AlikeButForFrames H s s' → contribution f s = contribution' f s')
    (ms : List Match) (acc : Tally q) (h : AlikeButForFrames H s s') :
    traceFrom config q env p q.visitor contribution ms acc s =
      Quantifier.traceFrom config q' env p' q'.visitor contribution' ms (translate acc) s' := by
  induction ms generalizing acc s s' with
  | nil => rfl
  | cons m ms ih =>
    cases hs : s.interrupter.terminateRequested with
    | true =>
      have hs' := h.terminateRequested_eq.symm.trans hs
      rw [traceFrom_of_terminating hs, traceFrom_of_terminating hs']
    | false =>
      have hs' := h.terminateRequested_eq.symm.trans hs
      cases hm : m.toFrame? with
      | none =>
        rw [traceFrom_of_none hs hm, traceFrom_of_none hs' hm]
        exact ih acc h
      | some f =>
        rw [traceFrom_of_some hs hm, traceFrom_of_some hs' hm, hsame f s s' h]
        obtain ⟨r, t, t', hr, hr', ht⟩ := hadvance acc f s s' h
        rw [hr, hr']
        rcases r with e | acc' | acc'
        · rfl
        · rfl
        · exact congrArg _ (ih acc' ht)

/-! ### Quantifications -/

variable {bs : List (Binding σ)}
  (hbs : ∀ lenient, IgnoresFrames H (Binding.resolveEach lenient env bs))
  (hfirst : translate q.firstTally = q'.firstTally)

include hbs hfirst

/-- The scans of quantifications over the same bindings end with accounts that translate into each
other. -/
lemma scan (h : AlikeButForFrames H s s') :
    Translates translate (AlikeButForFrames H) config
      (q.scan bs env p q.startsClear q.visitor q.firstTally) s
      (q'.scan bs env p' q'.startsClear q'.visitor q'.firstTally) s' := by
  obtain ⟨r, t, t', hs, hs', ht⟩ := hbs config.allowUnresolved config s s' h
  cases r with
  | error e => exact ⟨_, t, t', result_scan_of_error hs _ _, result_scan_of_error hs' _ _, ht⟩
  | ok values =>
    rw [Translates, result_scan_of_ok hs, result_scan_of_ok hs', ← hfirst]
    exact hadvance.scanList _ _ (ht.forgetIf _ _)

/-- **Quantifications in lock-step** end with answers that translate into each other. -/
theorem evaluate {answer : Bool → Bool}
    (hverdict : ∀ acc, q'.verdict (translate acc) = answer (q.verdict acc))
    (h : AlikeButForFrames H s s') :
    Translates answer (AlikeButForFrames H) config (q.evaluate bs p env) s
      (q'.evaluate bs p' env) s' := by
  obtain ⟨r, t, t', hs, hs', ht⟩ := hadvance.scan hbs hfirst h
  obtain ⟨c, hc⟩ := exists_result_evaluate q bs p env config s
  obtain ⟨c', hc'⟩ := exists_result_evaluate q' bs p' env config s'
  rw [hs] at hc
  rw [hs'] at hc'
  refine ⟨_, _, _, hc, hc'.trans ?_, ht.withCounterexamples c c'⟩
  cases r with
  | error e => rfl
  | ok acc => exact congrArg (fun b => (Except.ok b, _)) (hverdict acc)

/-- They make the same calls. -/
theorem trace {γ : Type} {contribution contribution' : Frame → Session σ → List γ}
    (hsame : ∀ f s s', AlikeButForFrames H s s' → contribution f s = contribution' f s')
    (h : AlikeButForFrames H s s') :
    q.trace config bs p env contribution s = q'.trace config bs p' env contribution' s' := by
  obtain ⟨r, t, t', hs, hs', ht⟩ := hbs config.allowUnresolved config s s' h
  rw [Quantifier.trace, Quantifier.trace, hs, hs']
  cases r with
  | error e => rfl
  | ok values =>
    dsimp only
    rw [← hfirst]
    exact hadvance.traceFrom hsame _ _ (ht.forgetIf _ _)

end AdvanceInStep

end Quantifier

end BoundedLogic
