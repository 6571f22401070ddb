import BoundedLogic.Evaluation.Session
import Mathlib.Tactic.Lemma

set_option relaxedAutoImplicit false
set_option autoImplicit false

/-!
# Evaluations and the sessions they leave

What each primitive evaluation returns and leaves, and how a sequence of two evaluations is taken
apart. Proofs about evaluations use these equations and never open the monad.

The recorded frames are the one part of a session that quantifications write without reading more
of it than its length. Two sessions that agree *but for the recorded frames* are those that become
equal when the frames are forgotten.

## Main definitions

* `BoundedLogic.Session.forget`, `BoundedLogic.Session.record`, `BoundedLogic.Session.truncate` —
  the session after the frames were cleared, extended and cut back.
* `BoundedLogic.Session.NothingRecorded` — a session without a recorded frame.

## Main results

* `BoundedLogic.Eval.result_bind_eq_ok_iff` — a sequence succeeds when both of its parts do.
* `BoundedLogic.Eval.result_bind_of_ok`, `BoundedLogic.Eval.result_bind_of_error` — the result of a
  sequence whose first part is known.
-/

namespace BoundedLogic

namespace Session

variable {σ : Type}

/-! ### The recorded frames -/

/-- The session with no frame recorded. -/
def forget (s : Session σ) : Session σ :=
  { s with counterexample := s.counterexample.map fun _ => .empty }

/-- The session with one more frame recorded. -/
def record (s : Session σ) (f : Frame) : Session σ :=
  { s with counterexample := s.counterexample.map fun c => c.push f }

/-- The session with only the first `n` recorded frames. -/
def truncate (s : Session σ) (n : Nat) : Session σ :=
  { s with counterexample := s.counterexample.map fun c => c.truncate n }

/-- A running interrupter and the given recorded frames, for a host without a state. -/
def running (fs : List Frame) : Session Unit :=
  { interrupter := {}, counterexample := some ⟨fs⟩, host := () }

@[simp] lemma forget_interrupter (s : Session σ) : s.forget.interrupter = s.interrupter := rfl

@[simp] lemma forget_counterexample (s : Session σ) :
    s.forget.counterexample = s.counterexample.map fun _ => .empty := rfl

@[simp] lemma record_counterexample (s : Session σ) (f : Frame) :
    (s.record f).counterexample = s.counterexample.map fun c => c.push f := rfl

@[simp] lemma truncate_counterexample (s : Session σ) (n : Nat) :
    (s.truncate n).counterexample = s.counterexample.map fun c => c.truncate n := rfl

/-- Forgetting twice is forgetting once. -/
@[simp] lemma forget_forget (s : Session σ) : s.forget.forget = s.forget := by
  simp [forget, Function.comp_def]

/-- Cutting back to the length of a list gives that list exactly if it is in front. -/
lemma truncate_counterexample_eq_iff {s : Session σ} {L : List Frame} :
    (s.truncate L.length).counterexample = some ⟨L⟩ ↔
      ∃ M, s.counterexample = some ⟨M⟩ ∧ L <+: M := by
  rcases hs : s.counterexample with _ | ⟨⟨M⟩⟩
  · simp [hs]
  · simp [hs, Counterexample.truncate, List.prefix_iff_eq_take, eq_comm]

/-! ### Sessions without a recorded frame -/

/-- No frame is recorded. -/
def NothingRecorded (s : Session σ) : Prop :=
  ∀ c, s.counterexample = some c → c.frames = []

/-- Nothing is recorded exactly where forgetting changes nothing. -/
lemma nothingRecorded_iff {s : Session σ} : s.NothingRecorded ↔ s.forget = s := by
  rcases s with ⟨interrupter, _ | ⟨⟨fs⟩⟩, host, withdrawn⟩
  · simp [NothingRecorded, forget]
  · simp [NothingRecorded, forget, Counterexample.empty, eq_comm]

/-- Nothing is recorded after the frames were forgotten. -/
lemma nothingRecorded_forget (s : Session σ) : s.forget.NothingRecorded :=
  nothingRecorded_iff.mpr s.forget_forget

/-- With all frames cut away nothing is recorded. -/
lemma nothingRecorded_truncate_zero (s : Session σ) : (s.truncate 0).NothingRecorded := by
  simp [NothingRecorded, Counterexample.truncate]

/-- Cutting back where nothing is recorded. -/
lemma NothingRecorded.truncate {s : Session σ} (h : s.NothingRecorded) (n : Nat) :
    (s.truncate n).NothingRecorded := by
  intro c hc
  obtain ⟨d, hd, rfl⟩ := Option.map_eq_some_iff.mp hc
  simp [Counterexample.truncate, h d hd]

/-- Where frames are recorded, and none is, the recorded frames are the empty list. -/
lemma NothingRecorded.counterexample_eq {s : Session σ} (h : s.NothingRecorded)
    (hs : s.counterexample.isSome) : s.counterexample = some ⟨[]⟩ := by
  obtain ⟨⟨fs⟩, hfs⟩ := Option.isSome_iff_exists.mp hs
  obtain rfl : fs = [] := h _ hfs
  exact hfs

end Session

namespace Eval

variable {σ α β : Type} {config : EngineConfig} {s t : Session σ}

/-! ### Primitive evaluations -/

/-- Reading the configuration changes nothing. -/
@[simp] lemma result_read (config : EngineConfig) (s : Session σ) :
    (read : Eval σ EngineConfig).result config s = (.ok config, s) := rfl

/-- Looking at the level changes nothing. -/
@[simp] lemma result_terminateRequested (config : EngineConfig) (s : Session σ) :
    (terminateRequested : Eval σ Bool).result config s =
      (.ok s.interrupter.terminateRequested, s) := rfl

/-- Forgetting the recorded frames. -/
@[simp] lemma result_clearCounterexample (config : EngineConfig) (s : Session σ) :
    (clearCounterexample : Eval σ Unit).result config s = (.ok (), s.forget) := rfl

/-- Recording one more frame. -/
@[simp] lemma result_recordFrame (f : Frame) (config : EngineConfig) (s : Session σ) :
    (recordFrame f : Eval σ Unit).result config s = (.ok (), s.record f) := rfl

/-- Counting the recorded frames changes nothing. -/
@[simp] lemma result_counterexampleSize (config : EngineConfig) (s : Session σ) :
    (counterexampleSize : Eval σ (Option Nat)).result config s =
      (.ok (s.counterexample.map Counterexample.size), s) := rfl

/-- Cutting the recorded frames back to a length that was asked earlier. -/
@[simp] lemma result_truncateCounterexample_some (n : Nat) (config : EngineConfig)
    (s : Session σ) :
    (truncateCounterexample (some n) : Eval σ Unit).result config s = (.ok (), s.truncate n) := rfl

/-- Evaluations are equal if they end alike whatever they start from. -/
lemma ext {x y : Eval σ α} (h : ∀ config s, x.result config s = y.result config s) : x = y :=
  funext fun config => funext fun s => h config s

/-! ### Sequences -/

/-- Nothing runs after a failure. -/
@[simp] lemma throw_bind (e : EvalError) (f : α → Eval σ β) :
    (throw e : Eval σ α) >>= f = throw e := rfl

/-- After a success the second evaluation decides. -/
lemma result_bind_of_ok {x : Eval σ α} {f : α → Eval σ β} {a : α}
    (h : x.result config s = (.ok a, t)) :
    (x >>= f).result config s = (f a).result config t := by
  rw [result_bind, h]

/-- After a failure the second evaluation does not run. -/
lemma result_bind_of_error {x : Eval σ α} {f : α → Eval σ β} {e : EvalError}
    (h : x.result config s = (.error e, t)) :
    (x >>= f).result config s = (.error e, t) := by
  rw [result_bind, h]

/-- A sequence succeeds when its first part does and its second part does in the session the first
one left. -/
lemma result_bind_eq_ok_iff {x : Eval σ α} {f : α → Eval σ β} {b : β} :
    (x >>= f).result config s = (.ok b, t) ↔
      ∃ a u, x.result config s = (.ok a, u) ∧ (f a).result config u = (.ok b, t) := by
  rcases h : x.result config s with ⟨e | a, u⟩
  · simp [result_bind_of_error h]
  · rw [result_bind_of_ok h]
    constructor
    · intro hf
      exact ⟨a, u, rfl, hf⟩
    · rintro ⟨a', u', h', hf⟩
      cases h'
      exact hf

/-- A sequence fails when its first part does, or when its second part does in the session the first
one left. -/
lemma result_bind_eq_error_iff {x : Eval σ α} {f : α → Eval σ β} {e : EvalError} :
    (x >>= f).result config s = (.error e, t) ↔
      x.result config s = (.error e, t) ∨
        ∃ a u, x.result config s = (.ok a, u) ∧ (f a).result config u = (.error e, t) := by
  rcases h : x.result config s with ⟨e' | a, u⟩
  · simp [result_bind_of_error h]
  · rw [result_bind_of_ok h]
    constructor
    · intro hf
      exact .inr ⟨a, u, rfl, hf⟩
    · rintro (h' | ⟨a', u', h', hf⟩)
      · simp at h'
      · cases h'
        exact hf

end Eval

end BoundedLogic
