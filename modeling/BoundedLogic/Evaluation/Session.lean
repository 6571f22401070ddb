import BoundedLogic.Evaluation.Config
import BoundedLogic.Evaluation.Counterexample
import BoundedLogic.Evaluation.Error
import BoundedLogic.Interrupt.Basic

set_option relaxedAutoImplicit false
set_option autoImplicit false

/-!
# Evaluations

An evaluation reads the configuration, works on a session and ends in a value or in an error. The
session holds what outlives one evaluation: the interrupter, the counterexample that is being
recorded, and a state of the host, which predicates and computed domains may use as they like. What
an evaluation did to the session stays when it fails.

Whoever begins an evaluation can give it a counterexample to record in. The evaluation can withdraw
it, and record in another one or in none. Then what the first one holds is kept apart, for the one
who gave it.

## Main definitions

* `BoundedLogic.Session` — the state an evaluation works on.
* `BoundedLogic.Session.firstCounterexample` — what the counterexample holds that was given at
  first.
* `BoundedLogic.Eval` — an evaluation.
* `BoundedLogic.Eval.attempt` — an evaluation with its failure as a result.
* `BoundedLogic.Eval.clearCounterexample`, `BoundedLogic.Eval.recordFrame`,
  `BoundedLogic.Eval.counterexampleSize`, `BoundedLogic.Eval.truncateCounterexample` — the recorded
  counterexample, if one is recorded at all.
* `BoundedLogic.Eval.replaceCounterexample`, `BoundedLogic.Eval.reinstateCounterexample` — recording
  in another counterexample, and in the first one again.
-/

namespace BoundedLogic

/-- The state an evaluation works on. `σ` is the type of the host's own state. -/
structure Session (σ : Type) where
  /-- The level set by the controller. -/
  interrupter : Interrupter
  /-- The counterexample recorded so far, unless none is wanted. -/
  counterexample : Option Counterexample
  /-- The state of the host. -/
  host : σ
  /-- What the first counterexample holds, if it has been withdrawn. It is not recorded in any
  more. -/
  withdrawn : Option Counterexample := none

/-- What the counterexample holds that was given at first, whether it is still recorded in or has
been withdrawn. Nothing, if none was given. -/
def Session.firstCounterexample {σ : Type} (s : Session σ) : Counterexample :=
  s.withdrawn.getD (s.counterexample.getD .empty)

/-- An evaluation: it reads a configuration and works on a session. -/
abbrev Eval (σ : Type) (α : Type) : Type :=
  ReaderT EngineConfig (ExceptT EvalError (StateM (Session σ))) α

namespace Eval

variable {σ α β : Type}

/-- The result of an evaluation and the session after it. -/
def result (x : Eval σ α) (config : EngineConfig) (s : Session σ) :
    Except EvalError α × Session σ :=
  (x config).run s

/-- The evaluation of which the results and sessions are given. -/
def ofResult (f : EngineConfig → Session σ → Except EvalError α × Session σ) : Eval σ α :=
  fun config => ExceptT.mk fun s => f config s

/-- Run an evaluation and return how it ended. -/
def attempt (x : Eval σ α) : Eval σ (Except EvalError α) :=
  ofResult fun config s =>
    match x.result config s with
    | (r, t) => (.ok r, t)

/-- An evaluation that cannot fail and reads no configuration. -/
def onSession (x : StateM (Session σ) α) : Eval σ α :=
  ofResult fun _ s =>
    match x.run s with
    | (a, t) => (.ok a, t)

/-- A failure as it is, or the value. -/
def ofExcept : Except EvalError α → Eval σ α
  | .ok a => pure a
  | .error e => throw e

/-! ### The interrupter -/

/-- Must an enumeration give up, for a pause of the given reason? A pause is waited out. -/
def shouldTerminate (reason : String) : StateM (Session σ) Bool :=
  modifyGet fun s =>
    let (stop, interrupter) := s.interrupter.shouldTerminate reason
    (stop, { s with interrupter })

/-- Has a terminate been sent? Never waits. -/
def terminateRequested : Eval σ Bool := do
  pure (← get).interrupter.terminateRequested

/-- Send a command to the interrupter. -/
def send (c : Command) : Eval σ Unit :=
  modify fun s => { s with interrupter := s.interrupter.send c }

/-! ### The counterexample -/

/-- Change the recorded counterexample, if one is recorded. -/
def modifyCounterexample (f : Counterexample → Counterexample) : Eval σ Unit :=
  modify fun s => { s with counterexample := s.counterexample.map f }

/-- Forget all recorded frames. -/
def clearCounterexample : Eval σ Unit :=
  modifyCounterexample fun _ => .empty

/-- Record one more frame. -/
def recordFrame (f : Frame) : Eval σ Unit :=
  modifyCounterexample fun c => c.push f

/-- The number of recorded frames, if they are recorded. -/
def counterexampleSize : Eval σ (Option Nat) := do
  pure ((← get).counterexample.map Counterexample.size)

/-- Forget the frames after the first ones; how many these are was asked earlier. -/
def truncateCounterexample : Option Nat → Eval σ Unit
  | some n => modifyCounterexample fun c => c.truncate n
  | none => pure ()

/-- A value leaves the session as it is. -/
@[simp] theorem result_pure (a : α) (config : EngineConfig) (s : Session σ) :
    (pure a : Eval σ α).result config s = (.ok a, s) := rfl

/-- A failure leaves the session as it is. -/
@[simp] theorem result_throw (e : EvalError) (config : EngineConfig) (s : Session σ) :
    (throw e : Eval σ α).result config s = (.error e, s) := rfl

/-- The second of two evaluations works on the session that the first one left, unless that one
failed. -/
theorem result_bind (x : Eval σ α) (f : α → Eval σ β) (config : EngineConfig) (s : Session σ) :
    (x >>= f).result config s =
      match x.result config s with
      | (.ok a, t) => (f a).result config t
      | (.error e, t) => (.error e, t) := by
  have h : (x >>= f).result config s =
      ExceptT.bindCont (fun a => f a config) (x.result config s).1 (x.result config s).2 := rfl
  rw [h]
  rcases x.result config s with ⟨_ | _, _⟩ <;> rfl

/-- What an attempt did to the session stays, also when it failed. -/
@[simp] theorem result_attempt (x : Eval σ α) (config : EngineConfig) (s : Session σ) :
    x.attempt.result config s = (.ok (x.result config s).1, (x.result config s).2) := rfl

/-- An evaluation of given results has these results. -/
@[simp] theorem result_ofResult (f : EngineConfig → Session σ → Except EvalError α × Session σ)
    (config : EngineConfig) (s : Session σ) : (ofResult f).result config s = f config s := rfl

end Eval

end BoundedLogic
