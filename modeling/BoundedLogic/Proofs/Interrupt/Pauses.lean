import BoundedLogic.Proofs.Interrupt.Levels

set_option relaxedAutoImplicit false
set_option autoImplicit false

/-!
# Pauses in the log of events

A wait that blocks is recorded as a pause. It goes on until the controller sends a command other
than to pause, and if that command is to resume or to terminate then it is recorded as well. So the
log tells of most pauses how they ended. It does not if the command was a reset: that ends a pause
as well, but it leaves nothing in the log, and whoever follows the log takes the evaluation to be
paused while it runs.

## Main definitions

* `BoundedLogic.Command.ending` — the reply by which a wait is ended.
* `BoundedLogic.InterruptCall.Blocks` — a call that waits out a pause.
* `BoundedLogic.Interrupter.AccountsFor` — the log tells that a pause is over, and how it ended.
* `BoundedLogic.Event.ShowsPaused` — who follows the log takes the evaluation to be paused.

## Main results

* `BoundedLogic.InterruptCall.pauses_accounted_for` — the log accounts for a pause exactly if no
  reset ended it, and shows a pause exactly if the last one in it was ended by a reset.
* `BoundedLogic.InterruptCall.not_every_pause_accounted_for` — some pause is not accounted for.
-/

namespace BoundedLogic

/-! ### What commands and waits record -/

/-- The reply by which a wait is ended: the first that is not to pause. Without one the controller
terminates in the end. -/
def Command.ending : List Command → Command
  | [] => .terminate
  | .pause :: cs => ending cs
  | c :: _ => c

/-- A command to pause does not end a wait. -/
lemma Command.ending_ne_pause (cs : List Command) : ending cs ≠ .pause := by
  induction cs with
  | nil => simp [ending]
  | cons c cs ih => cases c <;> simp [ending, ih]

/-- What is recorded of a command that is sent at a level. -/
def Level.events (l : Level) : Command → List Event
  | .resume => if l = .paused then [.resumed] else []
  | .terminate => [.terminated "terminate requested"]
  | .pause | .reset => []

/-- No command is recorded as a pause. -/
lemma Level.paused_notMem_events (l : Level) (c : Command) (reason : String) :
    .paused reason ∉ l.events c := by
  cases c with
  | resume => by_cases h : l = .paused <;> simp [events, h]
  | pause | terminate | reset => simp [events]

namespace Interrupter

/-- A command is recorded after what was recorded before. -/
lemma events_send (i : Interrupter) (c : Command) :
    (i.send c).events = i.events ++ i.level.events c := by
  cases c with
  | resume => by_cases h : i.level = .paused <;> simp [send, Level.events, emit, h]
  | pause | terminate | reset => simp [send, Level.events, emit]

/-- Of the replies to a wait that blocked only the one that ended it is recorded, and it decides the
level.

**Proof sketch.** Induction on the replies: a command to pause changes nothing, and any other one
ends the wait. -/
lemma unblock_spec {i : Interrupter} (h : i.level = .paused) (cs : List Command) :
    (unblock cs i).level = Level.after .paused (Command.ending cs) ∧
      (unblock cs i).events = i.events ++ Level.events .paused (Command.ending cs) := by
  induction cs generalizing i with
  | nil => exact ⟨rfl, rfl⟩
  | cons c cs ih =>
    have hlevel : (({ i with replies := cs } : Interrupter).send c).level = Level.after .paused c := by
      rw [level_send]
      exact congrArg (Level.after · c) h
    have hevents : (({ i with replies := cs } : Interrupter).send c).events =
        i.events ++ Level.events .paused c := by
      rw [events_send]
      exact congrArg (fun l => i.events ++ Level.events l c) h
    rw [unblock]
    cases c with
    | pause =>
      have hpaused : (({ i with replies := cs } : Interrupter).send .pause).level = .paused := hlevel
      obtain ⟨hl, he⟩ := ih hpaused
      rw [hevents, Level.events, List.append_nil] at he
      rw [if_pos hpaused]
      exact ⟨hl, he⟩
    | resume | terminate | reset =>
      rw [if_neg (by rw [hlevel]; decide)]
      exact ⟨hlevel, hevents⟩

/-- Between the first interrupter and the second, a wait for the given reason: the log tells of its
pause that it is over, and that it ended in the way in which the wait did. -/
def AccountsFor (i : Interrupter) (reason : String) (i' : Interrupter) : Prop :=
  ∃ log, i'.events = i.events ++ .paused reason :: log ∧
    (i'.level = .running → .resumed ∈ log) ∧
    (i'.level = .terminating → ∃ r, .terminated r ∈ log)

end Interrupter

/-- Whoever follows the log takes the evaluation to be paused: a pause was recorded, and nothing
after it. -/
def Event.ShowsPaused (es : List Event) : Prop :=
  ∃ reason, es.getLast? = some (.paused reason)

/-- A pause is no longer shown when something else is recorded. -/
lemma Event.showsPaused_append_iff {es new : List Event} (hnew : ∀ reason, .paused reason ∉ new) :
    ShowsPaused (es ++ new) ↔ ShowsPaused es ∧ new = [] := by
  rcases List.eq_nil_or_concat' new with rfl | ⟨new, e, rfl⟩
  · simp
  · have hlast : ∀ reason, e ≠ .paused reason := by
      rintro reason rfl
      exact hnew reason (by simp)
    simp [ShowsPaused, ← List.append_assoc, hlast]

namespace InterruptCall

/-! ### Calls that wait out a pause -/

/-- The call finds the interrupter paused and waits, for the given reason and with the given replies
of the controller. -/
def Blocks (i : Interrupter) (reason : String) (replies : List Command) (call : InterruptCall) :
    Prop :=
  i.level = .paused ∧ (call = .wait reason replies ∨ call = .ask reason replies)

variable {i : Interrupter} {reason : String} {replies : List Command} {call : InterruptCall}

/-- **A call that waits** records the pause and the reply that ends it, which decides the level. -/
lemma Blocks.perform_spec (h : call.Blocks i reason replies) :
    (perform i call).level = Level.after .paused (Command.ending replies) ∧
      (perform i call).events =
        i.events ++ .paused reason :: Level.events .paused (Command.ending replies) := by
  obtain ⟨hlevel, hcall⟩ := h
  have hperform : perform i call =
      Interrupter.unblock replies (({ i with replies } : Interrupter).emit (.paused reason)) := by
    rcases hcall with rfl | rfl
    · exact if_pos hlevel
    · rw [perform, Interrupter.shouldTerminate_snd]
      exact if_pos hlevel
  obtain ⟨hl, he⟩ := Interrupter.unblock_spec
    (i := ({ i with replies } : Interrupter).emit (.paused reason)) hlevel replies
  rw [hperform, hl, he]
  exact ⟨rfl, by simp [Interrupter.emit]⟩

/-- A call waits out a pause, or it records none. -/
lemma perform_cases (i : Interrupter) (call : InterruptCall) :
    (∃ reason replies, call.Blocks i reason replies) ∨
      ∃ new, (perform i call).events = i.events ++ new ∧ ∀ reason, .paused reason ∉ new := by
  cases call with
  | send c => exact .inr ⟨_, i.events_send c, i.level.paused_notMem_events c⟩
  | poll => exact .inr ⟨[], (List.append_nil _).symm, by simp⟩
  | wait reason replies =>
    by_cases h : i.level = .paused
    · exact .inl ⟨reason, replies, h, .inl rfl⟩
    · exact .inr ⟨[], by simp [perform, Interrupter.wait, h], by simp⟩
  | ask reason replies =>
    by_cases h : i.level = .paused
    · exact .inl ⟨reason, replies, h, .inr rfl⟩
    · exact .inr ⟨[], by simp [perform, Interrupter.shouldTerminate_snd, Interrupter.wait, h],
        by simp⟩

/-- The log accounts for the pause of a call that waits exactly if the wait is not ended by a
reset. -/
lemma Blocks.accountsFor_iff (h : call.Blocks i reason replies) :
    i.AccountsFor reason (perform i call) ↔ Command.ending replies ≠ .reset := by
  obtain ⟨hlevel, hevents⟩ := h.perform_spec
  rw [Interrupter.AccountsFor, hlevel, hevents]
  cases hc : Command.ending replies with
  | pause => exact absurd hc (Command.ending_ne_pause replies)
  | resume | terminate | reset => simp [Level.after, Level.events]

/-- After such a call a pause is shown exactly if the wait was ended by a reset. -/
lemma Blocks.showsPaused_iff (h : call.Blocks i reason replies) :
    Event.ShowsPaused (perform i call).events ↔ Command.ending replies = .reset := by
  rw [h.perform_spec.2]
  cases hc : Command.ending replies with
  | pause => exact absurd hc (Command.ending_ne_pause replies)
  | resume | terminate | reset => simp [Event.ShowsPaused, Level.events]

/-! ### Histories -/

/-- One more call. -/
lemma run_concat (calls : List InterruptCall) (call : InterruptCall) :
    run (calls ++ [call]) = perform (run calls) call := by
  rw [run, runFrom, List.foldl_concat]
  rfl

/-- One of the calls waits out a pause that is ended by a reset, and nothing is recorded in the
calls after it. -/
def EndsInSilentPause (calls : List InterruptCall) : Prop :=
  ∃ before call after reason replies, calls = before ++ call :: after ∧
    call.Blocks (run before) reason replies ∧ Command.ending replies = .reset ∧
    (run calls).events = (run (before ++ [call])).events

/-- **The log shows a pause** exactly if the last pause in it was ended by a reset, with nothing
recorded since.

**Proof sketch.** Induction on the calls from the right. A call that waits shows a pause if it is
ended by a reset, and then it is the one in question. Any other call shows no pause of its own: the
pause of an earlier one is still shown if it records nothing. -/
theorem showsPaused_iff (calls : List InterruptCall) :
    Event.ShowsPaused (run calls).events ↔ EndsInSilentPause calls := by
  constructor
  · induction calls using List.reverseRecOn with
    | nil =>
      rintro ⟨reason, h⟩
      cases h
    | append_singleton calls call ih =>
      intro h
      rw [run_concat] at h
      rcases perform_cases (run calls) call with ⟨reason, replies, hblocks⟩ | ⟨new, hnew, hother⟩
      · exact ⟨calls, call, [], reason, replies, rfl, hblocks, hblocks.showsPaused_iff.mp h, rfl⟩
      · rw [hnew, Event.showsPaused_append_iff hother] at h
        obtain ⟨hshows, rfl⟩ := h
        obtain ⟨before, c, after, reason, replies, rfl, hblocks, hreset, hsame⟩ := ih hshows
        refine ⟨before, c, after ++ [call], reason, replies, by simp, hblocks, hreset, ?_⟩
        rw [run_concat, hnew, List.append_nil, hsame]
  · rintro ⟨before, call, after, reason, replies, -, hblocks, hreset, hsame⟩
    rw [hsame, run_concat]
    exact hblocks.showsPaused_iff.mpr hreset

/-- **Which pauses the log accounts for.** In every history of calls, a wait that blocks comes to an
end at another level, and
* the log accounts for its pause exactly if it was not ended by a reset,
* so in particular if it was ended by a terminate.

Whoever follows the log takes the evaluation to be paused exactly if the last pause in it was ended
by a reset, with nothing recorded since. -/
theorem pauses_accounted_for (calls : List InterruptCall) :
    (∀ before call after reason replies, calls = before ++ call :: after →
      call.Blocks (run before) reason replies →
        (run (before ++ [call])).level ≠ .paused ∧
        ((run before).AccountsFor reason (run (before ++ [call])) ↔
          Command.ending replies ≠ .reset) ∧
        ((run (before ++ [call])).level = .terminating →
          (run before).AccountsFor reason (run (before ++ [call])))) ∧
      (Event.ShowsPaused (run calls).events ↔ EndsInSilentPause calls) := by
  refine ⟨fun before call after reason replies _ hblocks => ?_, showsPaused_iff calls⟩
  rw [run_concat]
  have hlevel := hblocks.perform_spec.1
  refine ⟨?_, hblocks.accountsFor_iff, fun hterminating => hblocks.accountsFor_iff.mpr ?_⟩
  · rw [hlevel]
    cases hc : Command.ending replies with
    | pause => exact absurd hc (Command.ending_ne_pause replies)
    | resume | terminate | reset => simp [Level.after]
  · intro hreset
    rw [hlevel, hreset] at hterminating
    cases hterminating

/-- A pause that is ended by a command to resume, then one that is ended by a reset while subsets
are enumerated. -/
def resumedThenReset : List InterruptCall :=
  [.send .pause, .wait "breakpoint" [.pause, .resume], .send .pause, .ask "power set" [.reset]]

/-- The log accounts for the first of these pauses and not for the second one, and in the end it
shows a pause though the level is that of a running evaluation. -/
theorem pauses_accounted_for_resumedThenReset :
    (run resumedThenReset).events =
        [.paused "breakpoint", .resumed, .paused "power set"] ∧
      (run resumedThenReset).level = .running ∧
      (run [.send .pause]).AccountsFor "breakpoint"
        (run [.send .pause, .wait "breakpoint" [.pause, .resume]]) ∧
      ¬ (run (resumedThenReset.take 3)).AccountsFor "power set" (run resumedThenReset) ∧
      Event.ShowsPaused (run resumedThenReset).events := by
  obtain ⟨hpauses, hshows⟩ := pauses_accounted_for resumedThenReset
  have hfirst := hpauses [.send .pause] (.wait "breakpoint" [.pause, .resume])
    [.send .pause, .ask "power set" [.reset]] "breakpoint" [.pause, .resume] rfl ⟨rfl, .inl rfl⟩
  have hsecond := hpauses (resumedThenReset.take 3) (.ask "power set" [.reset]) []
    "power set" [.reset] rfl ⟨rfl, .inr rfl⟩
  refine ⟨rfl, rfl, hfirst.2.1.mpr (by decide), fun h => hsecond.2.1.mp h rfl, hshows.mpr ?_⟩
  exact ⟨resumedThenReset.take 3, .ask "power set" [.reset], [], "power set", [.reset], rfl,
    ⟨rfl, .inr rfl⟩, rfl, rfl⟩

/-- Not every pause is accounted for: after one that a reset ended the evaluation goes on, and no
event says so. -/
theorem not_every_pause_accounted_for :
    ¬ ∀ (before : List InterruptCall) (call : InterruptCall) (reason : String)
      (replies : List Command), call.Blocks (run before) reason replies →
        (run before).AccountsFor reason (run (before ++ [call])) := by
  intro h
  obtain ⟨log, hlog, hresumed, -⟩ := h [.send .pause] (.wait "breakpoint" [.reset]) "breakpoint"
    [.reset] ⟨rfl, .inl rfl⟩
  have hevents : [Event.paused "breakpoint"] = [] ++ Event.paused "breakpoint" :: log := hlog
  obtain rfl : [] = log := by simpa using hevents
  exact absurd (hresumed rfl) (by decide)

end InterruptCall

end BoundedLogic
