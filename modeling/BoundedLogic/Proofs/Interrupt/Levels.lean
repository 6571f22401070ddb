import BoundedLogic.Evaluation.Session
import BoundedLogic.Proofs.Evaluation.Closure
import Mathlib.Data.List.Induction
import Mathlib.Tactic.Lemma

set_option relaxedAutoImplicit false
set_option autoImplicit false

/-!
# How long a terminate lasts

The level of an interrupter depends on nothing but the commands that were sent, those with which the
controller ended a wait included: looking at the level and waiting for it to change leave no trace
of their own. A terminate is taken back by a reset. It is also lost to a pause, which sets the level
whatever it was, and the command to resume then sets the enumeration going again. Nothing else takes
it back, and while it stands every enumeration that asks is told to give up, without a wait.

## Main definitions

* `BoundedLogic.InterruptCall`, `BoundedLogic.InterruptCall.run` — calls on an interrupter, one
  after another.
* `BoundedLogic.InterruptCall.sent` — the commands sent in the course of these calls.
* `BoundedLogic.Command.TerminateStands` — neither a reset nor a pause came after some terminate.

## Main results

* `BoundedLogic.InterruptCall.level_run` — the level is decided by the commands that were sent.
* `BoundedLogic.InterruptCall.terminating_iff_terminateStands` — the level is that of a terminate
  exactly if one stands, and every enumeration is then cancelled.
* `BoundedLogic.InterruptCall.not_terminating_until_reset` — a terminate can be lost without a
  reset.
-/

namespace BoundedLogic

/-! ### Commands and levels -/

/-- The level after a command. -/
def Level.after : Level → Command → Level
  | _, .pause => .paused
  | l, .resume => if l = .paused then .running else l
  | _, .terminate => .terminating
  | _, .reset => .running

namespace Command

/-- A terminate was sent, and neither a pause nor a reset after it. -/
def TerminateStands (cs : List Command) : Prop :=
  ∃ before after, cs = before ++ .terminate :: after ∧ ∀ c ∈ after, c ≠ .pause ∧ c ≠ .reset

/-- One more command lets a terminate stand if it is a terminate, or if one stood and it only asks
to resume. -/
lemma terminateStands_concat_iff {cs : List Command} {c : Command} :
    TerminateStands (cs ++ [c]) ↔ c = .terminate ∨ (c = .resume ∧ TerminateStands cs) := by
  constructor
  · rintro ⟨before, after, hcs, hafter⟩
    rcases List.eq_nil_or_concat' after with rfl | ⟨after, d, rfl⟩
    · exact .inl (List.singleton_injective (List.append_inj_right' hcs rfl))
    · have hsplit : cs ++ [c] = (before ++ .terminate :: after) ++ [d] := by simpa using hcs
      obtain ⟨rfl, hcd⟩ := List.append_inj' hsplit rfl
      obtain rfl := List.singleton_injective hcd
      have hstands : TerminateStands (before ++ .terminate :: after) :=
        ⟨before, after, rfl, fun e he => hafter e (List.mem_append_left _ he)⟩
      obtain ⟨hpause, hreset⟩ := hafter c (List.mem_append_right _ List.mem_cons_self)
      cases c with
      | pause => exact absurd rfl hpause
      | reset => exact absurd rfl hreset
      | terminate => exact .inl rfl
      | resume => exact .inr ⟨rfl, hstands⟩
  · rintro (rfl | ⟨rfl, before, after, rfl, hafter⟩)
    · exact ⟨cs, [], rfl, by simp⟩
    · refine ⟨before, after ++ [.resume], by simp, fun c hc => ?_⟩
      rcases List.mem_append.mp hc with hc | hc
      · exact hafter c hc
      · obtain rfl := List.mem_singleton.mp hc
        exact ⟨by decide, by decide⟩

/-- Commands end at the level of a terminate exactly if one stands.

**Proof sketch.** Induction on the commands from the right: a terminate sets the level, a pause and
a reset set another one, and resuming keeps any level but that of a pause. -/
lemma foldl_after_eq_terminating_iff (cs : List Command) :
    cs.foldl Level.after .running = .terminating ↔ TerminateStands cs := by
  induction cs using List.reverseRecOn with
  | nil => simp [TerminateStands]
  | append_singleton cs c ih =>
    rw [List.foldl_concat, terminateStands_concat_iff, ← ih]
    cases c with
    | pause | reset | terminate => simp [Level.after]
    | resume => cases cs.foldl Level.after .running <;> simp [Level.after]

/-- The replies to a wait that are sent: those up to the first that ends the pause. Without one the
controller terminates in the end. -/
def repliesSent : List Command → List Command
  | [] => [.terminate]
  | .pause :: cs => .pause :: repliesSent cs
  | c :: _ => [c]

end Command

namespace Interrupter

lemma level_send (i : Interrupter) (c : Command) : (i.send c).level = i.level.after c := by
  cases c with
  | pause | terminate | reset => rfl
  | resume =>
    rw [send, Level.after]
    split <;> rfl

/-- The level after a wait that blocked is decided by the replies that were sent. -/
lemma level_unblock {i : Interrupter} (h : i.level = .paused) (cs : List Command) :
    (unblock cs i).level = (Command.repliesSent cs).foldl Level.after i.level := by
  induction cs generalizing i with
  | nil => rfl
  | cons c cs ih =>
    have hsend : (({ i with replies := cs } : Interrupter).send c).level = i.level.after c :=
      level_send _ c
    rw [unblock]
    cases c with
    | pause =>
      have hpaused : (({ i with replies := cs } : Interrupter).send .pause).level = .paused := hsend
      rw [if_pos hpaused, ih hpaused, hpaused]
      rfl
    | resume | terminate | reset =>
      rw [if_neg (by rw [hsend, h]; decide), hsend]
      rfl

/-- Asking whether to give up is waiting out a pause, if there is one. -/
lemma shouldTerminate_snd (i : Interrupter) (reason : String) :
    (i.shouldTerminate reason).2 = i.wait reason := by
  cases h : i.level with
  | running | terminating => simp [shouldTerminate, wait, h]
  | paused => simp [shouldTerminate, h]

/-- Under a terminate an enumeration is told to give up at once. -/
lemma shouldTerminate_of_terminating {i : Interrupter} (h : i.level = .terminating)
    (reason : String) : i.shouldTerminate reason = (true, i) := by
  rw [shouldTerminate, h]

end Interrupter

/-! ### Calls -/

/-- A call on an interrupter. -/
inductive InterruptCall where
  /-- The controller sends a command. -/
  | send (c : Command)
  /-- The level is looked at. -/
  | poll
  /-- A pause is waited out, to which the controller has the given replies. -/
  | wait (reason : String) (replies : List Command)
  /-- An enumeration asks whether to give up, and waits if it has to. -/
  | ask (reason : String) (replies : List Command)

namespace InterruptCall

/-- The interrupter after a call. -/
def perform (i : Interrupter) : InterruptCall → Interrupter
  | .send c => i.send c
  | .poll => i
  | .wait reason replies => { i with replies }.wait reason
  | .ask reason replies => ({ i with replies }.shouldTerminate reason).2

/-- The commands sent in the course of a call: those by which a wait is ended, if it blocks. -/
def sentBy (i : Interrupter) : InterruptCall → List Command
  | .send c => [c]
  | .poll => []
  | .wait _ replies => if i.level = .paused then Command.repliesSent replies else []
  | .ask _ replies => if i.level = .paused then Command.repliesSent replies else []

/-- The interrupter after calls made one after another. -/
def runFrom (i : Interrupter) (calls : List InterruptCall) : Interrupter :=
  calls.foldl perform i

/-- The commands sent in the course of these calls. -/
def sentFrom : Interrupter → List InterruptCall → List Command
  | _, [] => []
  | i, call :: calls => sentBy i call ++ sentFrom (perform i call) calls

/-- The calls on a new interrupter. -/
def run (calls : List InterruptCall) : Interrupter :=
  runFrom {} calls

/-- The commands sent to it. -/
def sent (calls : List InterruptCall) : List Command :=
  sentFrom {} calls

/-- The level after a call is decided by the commands that were sent in its course. -/
lemma level_perform (i : Interrupter) (call : InterruptCall) :
    (perform i call).level = (sentBy i call).foldl Level.after i.level := by
  have hwait : ∀ reason replies, (({ i with replies } : Interrupter).wait reason).level =
      (if i.level = .paused then Command.repliesSent replies else []).foldl Level.after i.level := by
    intro reason replies
    rw [Interrupter.wait]
    by_cases h : i.level = .paused
    · have hunblock := Interrupter.level_unblock
        (i := ({ i with replies } : Interrupter).emit (.paused reason)) h replies
      rw [if_pos h, if_pos h]
      exact hunblock
    · rw [if_neg h, if_neg h]
      rfl
  cases call with
  | send c => exact i.level_send c
  | poll => rfl
  | wait reason replies => exact hwait reason replies
  | ask reason replies =>
    rw [perform, Interrupter.shouldTerminate_snd]
    exact hwait reason replies

/-- **The level after calls** is decided by the commands that were sent in their course. -/
theorem level_run (i : Interrupter) (calls : List InterruptCall) :
    (runFrom i calls).level = (sentFrom i calls).foldl Level.after i.level := by
  induction calls generalizing i with
  | nil => rfl
  | cons call calls ih =>
    rw [sentFrom, List.foldl_append, ← level_perform]
    exact ih (perform i call)

end InterruptCall

/-! ### Enumerations under a terminate -/

/-- How an enumeration of the subsets of `n` elements ends that is told to give up at once. -/
def EnumerationError.atOnce (n limit : Nat) : EnumerationError :=
  if limit < n ∨ wordBits ≤ n then .capacityExceeded n limit else .cancelled n

/-- Under a terminate no set of subsets comes about: the enumeration is cancelled after the first
subset, unless there are too many elements to start it.

**Proof sketch.** There is always a first subset, and the enumeration asks after it. -/
lemma run_powerSet_of_terminating {σ : Type} {s : Session σ}
    (hs : s.interrupter.level = .terminating) (reason : String) (vs : ValueSet) (limit : Nat) :
    (powerSet (Eval.shouldTerminate reason) vs limit).run.run s =
      (.error (.atOnce vs.elements.length limit), s) := by
  have hask : (Eval.shouldTerminate reason : StateM (Session σ) Bool).run s = (true, s) := by
    show (((s.interrupter.shouldTerminate reason).1,
      { s with interrupter := (s.interrupter.shouldTerminate reason).2 }) : Bool × Session σ) = _
    rw [Interrupter.shouldTerminate_of_terminating hs]
  have hanswer : answerTo (Eval.shouldTerminate reason) s 0 = true := by
    rw [answerTo, stateAfter, hask]
  have hfirst : stateAfter (Eval.shouldTerminate reason) s 1 = s := by
    rw [stateAfter, stateAfter, hask]
  rw [run_powerSet, EnumerationError.atOnce]
  split
  case isTrue hlimit =>
    rw [run_subsets_of_refused hlimit]
    rfl
  case isFalse hlimit =>
    have hnone : ∀ i < 0, answerTo (Eval.shouldTerminate reason) s i = false :=
      fun i hi => absurd hi i.not_lt_zero
    rw [run_subsets_of_answer hlimit (Nat.two_pow_pos _) hanswer hnone, hfirst]
    rfl

namespace InterruptCall

/-- **How long a terminate lasts.** After any calls the level is that of a terminate exactly if one
was sent and neither a pause nor a reset after it, be it as the reply to a wait. As long as it lasts
every look at the level shows it, every enumeration that asks is told to give up without a wait, and
no set of subsets comes about.

**Proof sketch.** The level is decided by the commands (`level_run`), and these end at the level of
a terminate exactly if one stands (`Command.foldl_after_eq_terminating_iff`). -/
theorem terminating_iff_terminateStands (calls : List InterruptCall) :
    ((run calls).level = .terminating ↔ Command.TerminateStands (sent calls)) ∧
      (Command.TerminateStands (sent calls) →
        (run calls).terminateRequested = true ∧
        (∀ reason, (run calls).shouldTerminate reason = (true, run calls)) ∧
        ∀ (σ : Type) (s : Session σ) (reason : String) (vs : ValueSet) (limit : Nat),
          s.interrupter = run calls →
          (powerSet (Eval.shouldTerminate reason) vs limit).run.run s =
            (.error (.atOnce vs.elements.length limit), s)) := by
  have hiff : (run calls).level = .terminating ↔ Command.TerminateStands (sent calls) := by
    rw [run, level_run]
    exact Command.foldl_after_eq_terminating_iff _
  refine ⟨hiff, fun hstands => ?_⟩
  have hlevel := hiff.mpr hstands
  refine ⟨?_, Interrupter.shouldTerminate_of_terminating hlevel, ?_⟩
  · rw [Interrupter.terminateRequested, hlevel]
    rfl
  · intro σ s reason vs limit hs
    exact run_powerSet_of_terminating (hs ▸ hlevel) reason vs limit

/-- A pause that is waited out and ended by a terminate, then a command to resume. -/
def terminatedWait : List InterruptCall :=
  [.send .pause, .wait "breakpoint" [.pause, .terminate, .reset], .poll, .send .resume]

/-- A session that begins after these calls. -/
def afterTerminatedWait : Session Unit where
  interrupter := run terminatedWait
  counterexample := none
  host := ()

/-- After the terminate that ended the wait stands the command to resume has no effect: the subsets
of a set of two elements are not enumerated. -/
theorem terminating_iff_terminateStands_terminatedWait :
    sent terminatedWait = [.pause, .pause, .terminate, .resume] ∧
      Command.TerminateStands (sent terminatedWait) ∧
      (run terminatedWait).level = .terminating ∧
      (powerSet (Eval.shouldTerminate "power set") (.ofDistinct [.int 1, .int 2]) 30).run.run
          afterTerminatedWait =
        (.error (.cancelled 2), afterTerminatedWait) := by
  have hstands : Command.TerminateStands (sent terminatedWait) :=
    ⟨[.pause, .pause], [.resume], rfl, by decide⟩
  have hlasts := terminating_iff_terminateStands terminatedWait
  exact ⟨rfl, hstands, hlasts.1.mpr hstands,
    (hlasts.2 hstands).2.2 Unit afterTerminatedWait "power set" _ 30 rfl⟩

/-- A terminate does not always last until a reset: a pause sent after it takes its place, and the
command to resume then sets the enumeration going. -/
theorem not_terminating_until_reset :
    ¬ ∀ calls : List InterruptCall,
      (∃ before after, sent calls = before ++ .terminate :: after ∧ .reset ∉ after) →
        (run calls).level = .terminating := by
  intro h
  have hlevel := h [.send .terminate, .send .pause, .send .resume]
    ⟨[], [.pause, .resume], rfl, by decide⟩
  exact absurd hlevel (by decide)

end InterruptCall

end BoundedLogic
