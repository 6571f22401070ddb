import BoundedLogic.Enumeration.Subset
import Mathlib.Algebra.Group.Nat.Defs
import Mathlib.Data.Bool.Basic
import Mathlib.Data.Nat.Find
import Mathlib.Order.Basic
import Mathlib.Tactic.Lemma

set_option relaxedAutoImplicit false
set_option autoImplicit false

/-!
# The questions of an enumeration

An enumeration of subsets asks after each subset whether to stop. What it is asked of has a state,
which an answer may depend on and a question may change. As nothing else does, the states after the
first, the second and further questions are fixed before the enumeration starts, and so are the
answers; all that they decide is how many of these questions are asked. While the answers are
negative every question is followed by one more subset, and the first positive answer is the last.

## Main definitions

* `BoundedLogic.stateAfter` — the state after a number of questions.
* `BoundedLogic.answerTo` — the answer to a question.

## Main results

* `BoundedLogic.run_subsetsFrom_of_answers` — after `k` negative answers there are `k` subsets.
* `BoundedLogic.run_subsets_of_answers`, `BoundedLogic.run_subsets_of_answer` — the enumeration that
  is never told to stop, and the one that is.
* `BoundedLogic.run_subsets_of_same_answers` — nothing but the answers decides.
-/

namespace BoundedLogic

section

variable {τ τ' α : Type}

/-- The state after a number of questions, asked one after another. -/
def stateAfter (stop : StateM τ Bool) (s : τ) : Nat → τ
  | 0 => s
  | k + 1 => (stop.run (stateAfter stop s k)).2

/-- The answer to question number `k`, the first one being number zero. -/
def answerTo (stop : StateM τ Bool) (s : τ) (k : Nat) : Bool :=
  (stop.run (stateAfter stop s k)).1

variable {stop : StateM τ Bool} {s t : τ} {xs : List α} {limit k count : Nat}

/-- The enumeration is never told to stop, or there is a question at which it is. -/
lemma answers_false_or_exists_first (stop : StateM τ Bool) (s : τ) (count : Nat) :
    (∀ i < count, answerTo stop s i = false) ∨
      ∃ k < count, answerTo stop s k = true ∧ ∀ i < k, answerTo stop s i = false := by
  by_cases hstops : ∃ k, k < count ∧ answerTo stop s k = true
  · obtain ⟨hk, hanswer⟩ := Nat.find_spec hstops
    refine .inr ⟨Nat.find hstops, hk, hanswer, fun i hi => ?_⟩
    refine Bool.eq_false_of_not_eq_true fun htrue => ?_
    exact Nat.find_min hstops hi ⟨hi.trans hk, htrue⟩
  · exact .inl fun i hi => Bool.eq_false_of_not_eq_true fun htrue => hstops ⟨i, hi, htrue⟩

/-- One step of an enumeration of subsets: it asks whether to stop, and stops or goes on. -/
lemma run_subsetsFrom_succ (stop : StateM τ Bool) (xs : List α) (count k : Nat)
    (built : List (List α)) (s : τ) :
    (subsetsFrom stop xs (count + 1) k built).run.run s =
      match stop.run s with
      | (true, t) => (.error (.cancelled xs.length), t)
      | (false, t) => (subsetsFrom stop xs count (k + 1) (pickBits xs k :: built)).run.run t := by
  rw [subsetsFrom, ExceptT.run_bind, StateT.run_bind]
  have hstop : (liftM stop : ExceptT EnumerationError (StateM τ) Bool).run.run s =
      (.ok (stop.run s).1, (stop.run s).2) := rfl
  rw [hstop]
  rcases stop.run s with ⟨_ | _, t⟩ <;> rfl

/-- After `k` negative answers there are `k` subsets, and the enumeration has asked `k` times.

**Proof sketch.** Induction on `k`: a negative answer adds the next subset and leads to the next
state. -/
lemma run_subsetsFrom_of_answers (hk : k ≤ count) (hanswers : ∀ i < k, answerTo stop s i = false) :
    (subsetsFrom stop xs count 0 []).run.run s =
      (subsetsFrom stop xs (count - k) k ((List.range k).map (pickBits xs)).reverse).run.run
        (stateAfter stop s k) := by
  induction k with
  | zero => rfl
  | succ k ih =>
    have hlast : (stop.run (stateAfter stop s k)).1 = false := hanswers k k.lt_succ_self
    have hleft : count - k = count - (k + 1) + 1 := by omega
    rw [ih (by omega) fun i hi => hanswers i (by omega), hleft, run_subsetsFrom_succ, stateAfter,
      List.range_succ, List.map_append, List.reverse_append]
    rcases hstop : stop.run (stateAfter stop s k) with ⟨answer, t⟩
    rw [hstop] at hlast
    obtain rfl : answer = false := hlast
    rfl

/-- Too many items are refused without a question. -/
lemma run_subsets_of_refused (h : limit < xs.length ∨ wordBits ≤ xs.length) (stop : StateM τ Bool)
    (s : τ) :
    (subsets stop xs limit).run.run s = (.error (.capacityExceeded xs.length limit), s) := by
  rw [subsets, if_pos h]
  rfl

section

variable (hlimit : ¬ (limit < xs.length ∨ wordBits ≤ xs.length))

include hlimit

/-- If there are not too many items, the enumeration is under way after `k` negative answers. -/
lemma run_subsets_eq (hk : k ≤ 2 ^ xs.length) (hanswers : ∀ i < k, answerTo stop s i = false) :
    (subsets stop xs limit).run.run s =
      (subsetsFrom stop xs (2 ^ xs.length - k) k
        ((List.range k).map (pickBits xs)).reverse).run.run (stateAfter stop s k) := by
  rw [subsets, if_neg hlimit]
  exact run_subsetsFrom_of_answers hk hanswers

/-- **An enumeration that is never told to stop** gives all subsets, and asks as often. -/
theorem run_subsets_of_answers (hanswers : ∀ i < 2 ^ xs.length, answerTo stop s i = false) :
    (subsets stop xs limit).run.run s =
      (.ok ((List.range (2 ^ xs.length)).map (pickBits xs)), stateAfter stop s (2 ^ xs.length)) := by
  rw [run_subsets_eq hlimit le_rfl hanswers, Nat.sub_self, subsetsFrom, List.reverse_reverse]
  rfl

/-- **An enumeration that is told to stop** asks no more, and gives nothing. -/
theorem run_subsets_of_answer (hk : k < 2 ^ xs.length) (hanswer : answerTo stop s k = true)
    (hanswers : ∀ i < k, answerTo stop s i = false) :
    (subsets stop xs limit).run.run s =
      (.error (.cancelled xs.length), stateAfter stop s (k + 1)) := by
  have hleft : 2 ^ xs.length - k = 2 ^ xs.length - (k + 1) + 1 := by omega
  rw [run_subsets_eq hlimit hk.le hanswers, hleft, run_subsetsFrom_succ, stateAfter]
  rcases hstop : stop.run (stateAfter stop s k) with ⟨answer, t⟩
  rw [answerTo, hstop] at hanswer
  obtain rfl : answer = true := hanswer
  rfl

end

/-- **Subsets that are enumerated** are those that the numbers pick, whatever asks the enumeration
to go on and whatever that does to the state; and then no answer was positive. -/
theorem run_subsets_of_ok {parts : List (List α)}
    (h : (subsets stop xs limit).run.run s = (.ok parts, t)) :
    parts = (List.range (2 ^ xs.length)).map (pickBits xs) ∧ t = stateAfter stop s (2 ^ xs.length) ∧
      ∀ i < 2 ^ xs.length, answerTo stop s i = false := by
  by_cases hlimit : limit < xs.length ∨ wordBits ≤ xs.length
  · rw [run_subsets_of_refused hlimit] at h
    cases h
  · rcases answers_false_or_exists_first stop s (2 ^ xs.length) with hfalse | ⟨k, hk, htrue, hfalse⟩
    · rw [run_subsets_of_answers hlimit hfalse] at h
      cases h
      exact ⟨rfl, rfl, hfalse⟩
    · rw [run_subsets_of_answer hlimit hk htrue hfalse] at h
      cases h

/-- **Nothing but the answers decides**: where the same answers are given, an enumeration ends in
the same way, after the same number of questions. -/
theorem run_subsets_of_same_answers {stop' : StateM τ' Bool} {s' : τ'}
    (h : ∀ k, answerTo stop s k = answerTo stop' s' k) (xs : List α) (limit : Nat) :
    ∃ r k, (subsets stop xs limit).run.run s = (r, stateAfter stop s k) ∧
      (subsets stop' xs limit).run.run s' = (r, stateAfter stop' s' k) := by
  by_cases hlimit : limit < xs.length ∨ wordBits ≤ xs.length
  · exact ⟨_, 0, run_subsets_of_refused hlimit .., run_subsets_of_refused hlimit ..⟩
  · rcases answers_false_or_exists_first stop s (2 ^ xs.length) with hfalse | ⟨k, hk, htrue, hfalse⟩
    · exact ⟨_, _, run_subsets_of_answers hlimit hfalse,
        run_subsets_of_answers hlimit fun i hi => (h i).symm.trans (hfalse i hi)⟩
    · exact ⟨_, _, run_subsets_of_answer hlimit hk htrue hfalse,
        run_subsets_of_answer hlimit hk ((h k).symm.trans htrue)
          fun i hi => (h i).symm.trans (hfalse i hi)⟩

/-- An enumeration leaves the state as a number of questions does. -/
lemma exists_run_subsets_eq (stop : StateM τ Bool) (s : τ) (xs : List α) (limit : Nat) :
    ∃ r k, (subsets stop xs limit).run.run s = (r, stateAfter stop s k) := by
  have hsame : ∀ k, answerTo stop s k = answerTo stop s k := fun _ => rfl
  obtain ⟨r, k, hrun, -⟩ := run_subsets_of_same_answers hsame xs limit
  exact ⟨r, k, hrun⟩

/-- The set of all subsets is made of the subsets that are enumerated. -/
lemma run_powerSet (stop : StateM τ Bool) (vs : ValueSet) (limit : Nat) (s : τ) :
    (powerSet stop vs limit).run.run s =
      (((subsets stop vs.elements limit).run.run s).1.map fun parts => .ofDistinct (parts.map .set),
        ((subsets stop vs.elements limit).run.run s).2) := by
  rw [powerSet, ExceptT.run_bind, StateT.run_bind]
  rcases (subsets stop vs.elements limit).run.run s with ⟨_ | _, _⟩ <;> rfl

end

end BoundedLogic
