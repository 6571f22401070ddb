import BoundedLogic.Proofs.Enumeration.Subsets
import BoundedLogic.Proofs.Interrupt.Pauses

set_option relaxedAutoImplicit false
set_option autoImplicit false

/-!
# Interrupted enumerations of subsets

A controller may send commands before any question of an enumeration, and while a question waits.
Whatever it does comes down to an answer for each question. If the enumeration is to give all
subsets, as many answers as there are subsets must be negative; otherwise it is cancelled at the
first that is positive, and no subset is given. A question that waits until the controller resumes
is answered as if there had been no pause, and leaves the level at which the enumeration runs.

## Main definitions

* `BoundedLogic.ValueSet.DecidedByAnswers` — what the answers to its questions make of an
  enumeration.
* `BoundedLogic.ControllerTurn`, `BoundedLogic.askInTurn` — what the controller does about a
  question, and the questions to an interrupter under a controller.
* `BoundedLogic.ControllerTurn.PauseInAddition` — a controller pauses and resumes where another one
  does not.

## Main results

* `BoundedLogic.answerTo_askInTurn_iff` — the answers of an interrupter are decided by the commands.
* `BoundedLogic.ValueSet.subsets_interrupted` — the enumeration of the subsets of a set, under all
  answers and all controllers.
-/

namespace BoundedLogic

/-! ### Questions to an interrupter -/

/-- What the controller does about a question: the commands that it sends before, and its replies in
case the question waits. -/
structure ControllerTurn where
  /-- The commands sent since the question before. -/
  sent : List Command
  /-- The replies to the wait. -/
  replies : List Command

/-- The interrupter that the question finds. -/
def ControllerTurn.found (turn : ControllerTurn) (i : Interrupter) : Interrupter :=
  { i.sendAll turn.sent with replies := turn.replies }

/-- The level after a question, which waits if it finds the level paused. -/
def Level.afterQuestion (l : Level) (replies : List Command) : Level :=
  if l = .paused then .after .paused (Command.ending replies) else l

namespace Interrupter

variable (i : Interrupter)

lemma level_sendAll (cs : List Command) : (i.sendAll cs).level = cs.foldl Level.after i.level := by
  induction cs generalizing i with
  | nil => rfl
  | cons c cs ih =>
    rw [List.foldl_cons, ← level_send]
    exact ih (i.send c)

/-- The level after a question is the one it finds, or the one that ends its wait. -/
lemma level_shouldTerminate (reason : String) :
    (i.shouldTerminate reason).2.level = i.level.afterQuestion i.replies := by
  rw [shouldTerminate_snd, wait, Level.afterQuestion]
  by_cases h : i.level = .paused
  · rw [if_pos h, if_pos h]
    exact (unblock_spec (i := i.emit (.paused reason)) h i.replies).1
  · rw [if_neg h, if_neg h]

/-- The answer tells whether the level afterwards is that of a terminate. -/
lemma shouldTerminate_fst (reason : String) :
    (i.shouldTerminate reason).1 = (i.shouldTerminate reason).2.terminateRequested := by
  cases h : i.level with
  | running | terminating => simp [shouldTerminate, terminateRequested, h]
  | paused => simp [shouldTerminate, h]

end Interrupter

/-- An enumeration asks an interrupter while a controller takes its turns, one for each question.
The questions are counted. -/
def askInTurn (reason : String) (turns : Nat → ControllerTurn) : StateM (Interrupter × Nat) Bool :=
  modifyGet fun s =>
    let (stop, i) := ((turns s.2).found s.1).shouldTerminate reason
    (stop, (i, s.2 + 1))

namespace ControllerTurn

/-- The level after a number of questions, if it was the given one before the first. -/
def levelAfter (turns : Nat → ControllerTurn) (l : Level) : Nat → Level
  | 0 => l
  | k + 1 =>
    ((turns k).sent.foldl Level.after (levelAfter turns l k)).afterQuestion (turns k).replies

/-- The level that a question finds. -/
def levelAt (turns : Nat → ControllerTurn) (l : Level) (k : Nat) : Level :=
  (turns k).sent.foldl Level.after (levelAfter turns l k)

/-- The second controller does the same as the first, but where the first lets the enumeration run
it may pause it as well; the question then waits, and the controller resumes. -/
def PauseInAddition (l : Level) (turns turns' : Nat → ControllerTurn) : Prop :=
  ∀ k, turns' k = turns k ∨
    levelAt turns l k = .running ∧ (turns' k).sent = (turns k).sent ++ [.pause] ∧
      Command.ending (turns' k).replies = .resume

variable {turns turns' : Nat → ControllerTurn} {l : Level}

/-- Pauses that are resumed leave the level after each question as it is without them.

**Proof sketch.** Induction on the number of questions: a wait that is ended by a command to resume
ends at the level that the question would have found. -/
lemma PauseInAddition.levelAfter_eq (h : PauseInAddition l turns turns') (k : Nat) :
    levelAfter turns' l k = levelAfter turns l k := by
  induction k with
  | zero => rfl
  | succ k ih =>
    rw [levelAfter, levelAfter, ih]
    rcases h k with hsame | ⟨hrunning, hsent, hreplies⟩
    · rw [hsame]
    · rw [levelAt] at hrunning
      rw [hsent, List.foldl_concat, hrunning, Level.after, Level.afterQuestion, if_pos rfl, hreplies]
      rfl

end ControllerTurn

section

variable (reason : String) (turns : Nat → ControllerTurn) (i : Interrupter)

/-- The states after the questions count them, and their levels are decided by the commands. -/
lemma stateAfter_askInTurn (k : Nat) :
    (stateAfter (askInTurn reason turns) (i, 0) k).2 = k ∧
      (stateAfter (askInTurn reason turns) (i, 0) k).1.level =
        ControllerTurn.levelAfter turns i.level k := by
  induction k with
  | zero => exact ⟨rfl, rfl⟩
  | succ k ih =>
    obtain ⟨hcount, hlevel⟩ := ih
    rcases hstate : stateAfter (askInTurn reason turns) (i, 0) k with ⟨j, k'⟩
    rw [hstate] at hcount hlevel
    obtain rfl : k' = k := hcount
    rw [stateAfter, hstate, ControllerTurn.levelAfter, ← hlevel, ← j.level_sendAll]
    exact ⟨rfl, ((turns k').found j).level_shouldTerminate reason⟩

/-- **The answers of an interrupter**: an enumeration is told to stop exactly if the commands sent
so far, replies to a wait included, end at the level of a terminate. -/
theorem answerTo_askInTurn_iff (k : Nat) :
    answerTo (askInTurn reason turns) (i, 0) k = true ↔
      ControllerTurn.levelAfter turns i.level (k + 1) = .terminating := by
  rw [← (stateAfter_askInTurn reason turns i (k + 1)).2, stateAfter, answerTo]
  rcases stateAfter (askInTurn reason turns) (i, 0) k with ⟨j, k'⟩
  have hanswer := ((turns k').found j).shouldTerminate_fst reason
  exact (Bool.eq_iff_iff.mp hanswer).trans beq_iff_eq

end

/-- Pauses that are resumed leave the answers as they are without them. -/
lemma ControllerTurn.PauseInAddition.answerTo_eq {i : Interrupter}
    {turns turns' : Nat → ControllerTurn} (h : PauseInAddition i.level turns turns')
    (reason : String) (k : Nat) :
    answerTo (askInTurn reason turns) (i, 0) k = answerTo (askInTurn reason turns') (i, 0) k := by
  rw [Bool.eq_iff_iff, answerTo_askInTurn_iff, answerTo_askInTurn_iff, h.levelAfter_eq]

/-! ### Subsets -/

namespace ValueSet

/-- The answers to the questions of an enumeration of subsets decide how it ends. -/
structure DecidedByAnswers (vs : ValueSet) (limit : Nat) {τ : Type} (stop : StateM τ Bool) (s : τ) :
    Prop where
  /-- A set that is too large is refused without a question. -/
  refused : limit < vs.size ∨ 64 ≤ vs.size →
    (subsets stop vs.elements limit).run.run s = (.error (.capacityExceeded vs.size limit), s)
  /-- There is one question for each subset: after `k` questions, all answered negatively, there are
  `k` subsets, and the enumeration goes on with the next one. -/
  under_way : ¬ (limit < vs.size ∨ 64 ≤ vs.size) → ∀ k ≤ 2 ^ vs.size,
    (∀ i < k, answerTo stop s i = false) →
      (subsets stop vs.elements limit).run.run s =
        (subsetsFrom stop vs.elements (2 ^ vs.size - k) k
          ((List.range k).map (pickBits vs.elements)).reverse).run.run (stateAfter stop s k)
  /-- All subsets are given exactly if that many answers are negative. -/
  complete_iff : ¬ (limit < vs.size ∨ 64 ≤ vs.size) →
    ((∃ parts t, (subsets stop vs.elements limit).run.run s = (.ok parts, t)) ↔
      ∀ k < 2 ^ vs.size, answerTo stop s k = false)
  /-- What is given then are the subsets, with a question for each of them. -/
  complete : ∀ parts t, (subsets stop vs.elements limit).run.run s = (.ok parts, t) →
    vs.EnumeratesSubsets parts ∧ t = stateAfter stop s (2 ^ vs.size)
  /-- The first positive answer cancels the enumeration, and there is no further question. -/
  cancelled : ¬ (limit < vs.size ∨ 64 ≤ vs.size) → ∀ j < 2 ^ vs.size,
    answerTo stop s j = true → (∀ i < j, answerTo stop s i = false) →
      (subsets stop vs.elements limit).run.run s =
        (.error (.cancelled vs.size), stateAfter stop s (j + 1))

variable {vs : ValueSet}

/-- The enumeration of the subsets of a valid set is decided by the answers, whoever gives them. -/
lemma IsValid.decidedByAnswers (h : vs.IsValid) (limit : Nat) {τ : Type} (stop : StateM τ Bool)
    (s : τ) : vs.DecidedByAnswers limit stop s where
  refused hlimit := run_subsets_of_refused hlimit stop s
  under_way hlimit _ hk hanswers := run_subsets_eq hlimit hk hanswers
  complete_iff hlimit := by
    constructor
    · rintro ⟨parts, t, hrun⟩
      exact (run_subsets_of_ok hrun).2.2
    · exact fun hanswers => ⟨_, _, run_subsets_of_answers hlimit hanswers⟩
  complete parts t hrun := by
    obtain ⟨rfl, rfl, -⟩ := run_subsets_of_ok hrun
    exact ⟨h.enumeratesSubsets, rfl⟩
  cancelled hlimit _ hj hanswer hanswers := run_subsets_of_answer hlimit hj hanswer hanswers

/-- **Enumerating subsets under interruption.** The answers to its questions decide how the
enumeration of the subsets of a valid set ends, and after how many questions. Pauses in addition
that are resumed make no difference to either.

**Proof sketch.** Where the same answers are given the enumeration ends in the same way, after the
same number of questions (`run_subsets_of_same_answers`); and a pause that is resumed leaves the
answers as they are (`ControllerTurn.PauseInAddition.answerTo_eq`). -/
theorem subsets_interrupted (h : vs.IsValid) (limit : Nat) :
    (∀ (τ : Type) (stop : StateM τ Bool) (s : τ), vs.DecidedByAnswers limit stop s) ∧
      ∀ (reason : String) (i : Interrupter) (turns turns' : Nat → ControllerTurn),
        ControllerTurn.PauseInAddition i.level turns turns' →
          let run := (subsets (askInTurn reason turns) vs.elements limit).run.run (i, 0)
          let run' := (subsets (askInTurn reason turns') vs.elements limit).run.run (i, 0)
          run.1 = run'.1 ∧ run.2.2 = run'.2.2 := by
  refine ⟨fun τ stop s => h.decidedByAnswers limit stop s, fun reason i turns turns' hpauses => ?_⟩
  obtain ⟨r, k, hrun, hrun'⟩ := run_subsets_of_same_answers
    (hpauses.answerTo_eq reason) vs.elements limit
  rw [hrun, hrun']
  exact ⟨rfl, (stateAfter_askInTurn reason turns i k).1.trans
    (stateAfter_askInTurn reason turns' i k).1.symm⟩

/-- A controller that pauses before the third question, and terminates while it waits. -/
def terminatesAtThird : Nat → ControllerTurn
  | 2 => ⟨[.pause], [.terminate]⟩
  | _ => ⟨[], []⟩

/-- The same, with a pause at the first question that is repeated and then resumed. -/
def pausesAtFirst : Nat → ControllerTurn
  | 0 => ⟨[.pause], [.pause, .resume]⟩
  | k => terminatesAtThird k

/-- The subsets of `{2, 1}` under these controllers: the enumeration is cancelled after three
questions, whether or not the first of them waits. -/
theorem subsets_interrupted_atThird :
    let vs := ofDistinct [.int 2, .int 1]
    let run := (subsets (askInTurn "power set" terminatesAtThird) vs.elements 2).run.run ({}, 0)
    let run' := (subsets (askInTurn "power set" pausesAtFirst) vs.elements 2).run.run ({}, 0)
    vs.IsValid ∧ ControllerTurn.PauseInAddition .running terminatesAtThird pausesAtFirst ∧
      (run.1 = .error (.cancelled 2) ∧ run.2.2 = 3) ∧
      run'.1 = .error (.cancelled 2) ∧ run'.2.2 = 3 := by
  intro vs run run'
  have hvs : vs.IsValid := isValid_ofDistinct (by
    rw [Value.Distinct]
    decide +kernel)
  have hpauses : ControllerTurn.PauseInAddition .running terminatesAtThird pausesAtFirst := by
    intro k
    cases k with
    | zero => exact .inr ⟨rfl, rfl, rfl⟩
    | succ k => exact .inl rfl
  obtain ⟨hdecided, hsame⟩ := subsets_interrupted hvs 2
  have hrun : run = (.error (.cancelled 2),
      stateAfter (askInTurn "power set" terminatesAtThird) ({}, 0) 3) :=
    (hdecided _ _ _).cancelled (by decide) 2 (by decide) rfl (by decide)
  obtain ⟨hresult, hcount⟩ := hsame "power set" {} _ _ hpauses
  have hends : run.1 = .error (.cancelled 2) ∧ run.2.2 = 3 := by
    rw [hrun]
    exact ⟨rfl, rfl⟩
  exact ⟨hvs, hpauses, hends, hresult.symm.trans hends.1, hcount.symm.trans hends.2⟩

end ValueSet

end BoundedLogic
