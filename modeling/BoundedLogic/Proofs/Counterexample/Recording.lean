import BoundedLogic.Proofs.Evaluation.Closure

set_option relaxedAutoImplicit false
set_option autoImplicit false

/-!
# Evaluations that do not stop the recording

Frames are recorded only where that was asked for. What the host computes could end the recording;
the evaluations of the engine itself never do. If the computed domains and the predicate of a
quantification do not end it, then neither does the quantification.

## Main definitions

* `BoundedLogic.Eval.StaysRecording` — an evaluation after which frames are still recorded.
* `BoundedLogic.Domain.StaysRecording` — a domain whose computed parts are such evaluations.

## Main results

* `BoundedLogic.Binding.staysRecording_resolveEach` — the working out of bindings over such domains.
* `BoundedLogic.Quantifier.staysRecording_evaluate` — quantifications over such domains.
-/

namespace BoundedLogic

variable {σ : Type} {config : EngineConfig}

namespace Eval

variable {α β : Type}

/-! ### Sequences -/

/-- If frames are recorded when the evaluation starts, they still are when it has given a value. -/
def StaysRecording (config : EngineConfig) (x : Eval σ α) : Prop :=
  ∀ s a t, x.result config s = (.ok a, t) → s.counterexample.isSome → t.counterexample.isSome

/-- A value changes nothing. -/
lemma staysRecording_pure (a : α) : StaysRecording config (pure a : Eval σ α) := by
  intro s b t h hs
  obtain ⟨rfl, rfl⟩ : a = b ∧ s = t := by simpa using h
  exact hs

/-- A failure gives no value. -/
lemma staysRecording_throw (e : EvalError) : StaysRecording config (throw e : Eval σ α) := by
  intro s a t h
  simp at h

/-- Two evaluations in sequence. -/
lemma StaysRecording.bind {x : Eval σ α} {f : α → Eval σ β} (hx : StaysRecording config x)
    (hf : ∀ a, StaysRecording config (f a)) : StaysRecording config (x >>= f) := by
  intro s b t h hs
  obtain ⟨a, u, ha, hb⟩ := result_bind_eq_ok_iff.mp h
  exact hf a u b t hb (hx s a u ha hs)

/-- Changing the recorded frames does not end the recording. -/
lemma staysRecording_modifyCounterexample (f : Counterexample → Counterexample) :
    StaysRecording config (modifyCounterexample f : Eval σ Unit) := by
  intro s a t h hs
  obtain rfl : { s with counterexample := s.counterexample.map f } = t := congrArg Prod.snd h
  simpa using hs

/-- Neither does cutting them back. -/
lemma StaysRecording.restoring {x : Eval σ α} (hx : StaysRecording config x) :
    StaysRecording config x.restoring := by
  intro s a t h hs
  rw [Eval.restoring, result_bind_of_ok (result_counterexampleSize ..)] at h
  refine hx.bind (fun r => ?_) s a t h hs
  refine StaysRecording.bind ?_ fun _ => staysRecording_pure r
  cases s.counterexample.map Counterexample.size with
  | none => exact staysRecording_pure ()
  | some n => exact staysRecording_modifyCounterexample _

/-- Enumerations leave the recorded frames as they are. -/
lemma isPassage_counterexample_eq :
    IsPassage fun s t : Session σ => t.counterexample = s.counterexample where
  refl _ := rfl
  trans hst htu := htu.trans hst
  ask _ _ := rfl

/-- **The engine does not end the recording** by itself. -/
theorem keptByEngine_staysRecording (config : EngineConfig) :
    KeptByEngine fun _ (x : Eval σ _) => StaysRecording config x where
  pure := staysRecording_pure
  throw := staysRecording_throw
  bind := StaysRecording.bind
  rethrow := fun _ _ hx s a t h => hx s a t (result_rethrow_eq_ok_iff.mp h)
  restoring := StaysRecording.restoring
  read := by
    intro s a t h hs
    obtain ⟨-, rfl⟩ : _ ∧ s = t := by simpa using h
    exact hs
  terminateRequested := by
    intro s a t h hs
    obtain ⟨-, rfl⟩ : _ ∧ s = t := by simpa using h
    exact hs
  modifyCounterexample := staysRecording_modifyCounterexample
  evalPowerSet := by
    intro vs s a t h hs
    rw [Domain.evalPowerSet, result_bind_of_ok (result_read ..)] at h
    refine StaysRecording.bind (fun s b t h hs => ?_) (fun r => ?_) s a t h hs
    · obtain rfl := congrArg Prod.snd h
      exact (isPassage_counterexample_eq.powerSet "power set" vs config.powersetLimit s).symm ▸ hs
    · cases r with
      | ok parts => exact staysRecording_pure parts
      | error e => exact staysRecording_throw _

end Eval

/-! ### Bindings and quantifications -/

/-- What the host computes for the domain does not end the recording. -/
def Domain.StaysRecording (config : EngineConfig) : Domain σ → Prop
  | .power d => d.StaysRecording config
  | .dom d => d.StaysRecording config
  | .rng d => d.StaysRecording config
  | .computed _ run => ∀ env, Eval.StaysRecording config (run env)
  | _ => True

/-- This is a property of the host's evaluations. -/
lemma Domain.StaysRecording.hostSatisfies {d : Domain σ} (hd : d.StaysRecording config) :
    d.HostSatisfies (Eval.StaysRecording config) := by
  induction d with
  | power d ih | dom d ih | rng d ih => exact ih hd
  | computed label run => exact hd
  | value v | name n | range lo hi | type t => trivial

/-- Working out bindings does not end the recording, if what the host computes for them does not. -/
theorem Binding.staysRecording_resolveEach {lenient : Bool} {env : Context} {bs : List (Binding σ)}
    (hbs : ∀ b ∈ bs, b.domain.StaysRecording config) :
    Eval.StaysRecording config (resolveEach lenient env bs) :=
  (Eval.keptByEngine_staysRecording config).resolveEach (fun b hb => (hbs b hb).hostSatisfies)
    lenient env

/-- **A quantification does not end the recording**, if neither its predicate nor what the host
computes for its domains does. -/
theorem Quantifier.staysRecording_evaluate {p : Context → Eval σ Value} {env : Context}
    (q : Quantifier) {bs : List (Binding σ)} (hbs : ∀ b ∈ bs, b.domain.StaysRecording config)
    (hp : ∀ c, Eval.StaysRecording config (p c)) :
    Eval.StaysRecording config (q.evaluate bs p env) :=
  (Eval.keptByEngine_staysRecording config).quantifier q (fun b hb => (hbs b hb).hostSatisfies) hp

end BoundedLogic
