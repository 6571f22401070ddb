import BoundedLogic.Evaluation.Odometer
import Mathlib.Data.List.Forall2
import Mathlib.Tactic.Lemma

set_option relaxedAutoImplicit false
set_option autoImplicit false

/-!
# Odometers enumerate products

The combinations of several lists of matches are the ways to take one match from each list, in
lexicographic order with the last list fastest. An odometer whose wheels hold these lists, and which
shows some combination, has that combination and the ones after it still to come; turning it on
takes the first of them away. So the readings of an odometer are, one after another, the elements of
the product of its wheels.

It does not matter for this whether what a wheel shows is a match of its own. All that turning needs
is that every wheel shows something and that none is without matches.

## Main definitions

* `BoundedLogic.Match.product` — the combinations of several lists of matches.
* `BoundedLogic.Odometer.CanTurn` — every wheel shows something and has matches to turn to.
* `BoundedLogic.Odometer.upcoming` — the combinations from the present reading on.
* `BoundedLogic.Odometer.IsValid`, `BoundedLogic.Odometer.remaining` — the same for an odometer,
  which may be over.
* `BoundedLogic.Odometer.atFirstReading` — the odometer at the first reading of some wheels.

## Main results

* `BoundedLogic.Odometer.turn_spec` — turning on takes away the first combination to come.
* `BoundedLogic.Odometer.next_spec` — the next combination is the first one to come, and it is
  never an error.
* `BoundedLogic.Odometer.atFirstReading_spec` — from the first reading on, the whole product is to
  come.
-/

namespace BoundedLogic

namespace Match

/-- All ways to take one match from each list, the last list fastest, each as one match. -/
def product : List (List Match) → List Match
  | [] => [.empty]
  | ms :: rest => ms.flatMap fun m => (product rest).map (m ++ ·)

/-- The number of combinations is the product of the numbers of matches. -/
lemma length_product (mss : List (List Match)) :
    (product mss).length = mss.foldr (fun ms n => ms.length * n) 1 := by
  induction mss with
  | nil => rfl
  | cons ms rest ih =>
    simp only [product, List.length_flatMap, List.length_map, List.map_const',
      List.sum_replicate_nat, List.foldr_cons, ← ih]

/-- There is no combination with a list that has no match. -/
lemma product_eq_nil {mss : List (List Match)} (h : [] ∈ mss) : product mss = [] := by
  induction mss with
  | nil => simp at h
  | cons ms rest ih =>
    rcases List.mem_cons.mp h with rfl | h
    · rfl
    · simp [product, ih h]

/-- The bindings of several matches, the first one apart. -/
lemma concat_cons (m : Match) (ms : List Match) : concat (m :: ms) = m ++ concat ms := rfl

end Match

namespace Odometer

variable {σ : Type}

/-! ### Readings -/

/-- The matches on each wheel, passed or not. -/
def faces (ws : List (Wheel σ)) : List (List Match) :=
  ws.map fun w => w.cursor.found

@[simp] lemma faces_cons (w : Wheel σ) (ws : List (Wheel σ)) :
    faces (w :: ws) = w.cursor.found :: faces ws := rfl

/-- Each wheel has a match to show, and matches of its own. -/
def CanTurn (ws : List (Wheel σ)) (ms : List Match) : Prop :=
  List.Forall₂ (fun w _ => w.cursor.found ≠ []) ws ms

/-- There are as many matches to show as wheels, and no wheel is without matches of its own. -/
lemma canTurn_iff {ws : List (Wheel σ)} {ms : List Match} :
    CanTurn ws ms ↔ ws.length = ms.length ∧ [] ∉ faces ws := by
  induction ws generalizing ms with
  | nil => cases ms <;> simp [CanTurn, faces]
  | cons w ws ih =>
    cases ms with
    | nil => simp [CanTurn]
    | cons m ms =>
      have hcons : CanTurn (w :: ws) (m :: ms) ↔ w.cursor.found ≠ [] ∧ CanTurn ws ms :=
        List.forall₂_cons
      rw [hcons, ih, faces_cons, List.mem_cons, eq_comm (a := [])]
      simp only [List.length_cons, Nat.add_right_cancel_iff, not_or]
      tauto

/-- The combinations from a reading on: those that turn only the later wheels, then, for each match
still to come on the first wheel, all combinations of the later wheels. -/
def upcoming : List (Wheel σ) → List Match → List Match
  | w :: ws, m :: ms =>
    (upcoming ws ms).map (m ++ ·) ++
      w.cursor.rest.flatMap fun n => (Match.product (faces ws)).map (n ++ ·)
  | _, _ => [.empty]

/-- What turning the wheels does to the combinations to come. -/
structure Turned (ws : List (Wheel σ)) (ms : List Match) (isOver : Bool) (ws' : List (Wheel σ))
    (ms' : List Match) : Prop where
  /-- The wheels can turn again. -/
  canTurn : CanTurn ws' ms'
  /-- The wheels hold the same matches. -/
  faces_eq : faces ws' = faces ws
  /-- Unless the first wheel was at its end, the present combination is taken away. -/
  upcoming_eq : isOver = false → upcoming ws ms = Match.concat ms :: upcoming ws' ms'
  /-- If it was, the present combination was the last one. -/
  upcoming_last : isOver = true → upcoming ws ms = [Match.concat ms]
  /-- In that case all combinations are to come again. -/
  upcoming_again : isOver = true → upcoming ws' ms' = Match.product (faces ws)

/-- **Turning** an odometer takes away the first of the combinations to come, and is never an error
while every wheel can turn.

**Proof sketch.** Induction on the wheels. If the later wheels were not at their end, the first
wheel stays and the combinations that turn only the later wheels lose their first one. If they were,
these combinations come down to the present one; the first wheel then moves on to its next match,
with all combinations of the later wheels to come, or starts again. -/
theorem turn_spec {ws : List (Wheel σ)} {ms : List Match} (h : CanTurn ws ms) :
    ∃ isOver ws' ms', turn ws ms = (.ok isOver, ws', ms') ∧ Turned ws ms isOver ws' ms' := by
  induction h with
  | nil =>
    refine ⟨true, [], [], rfl, .nil, rfl, ?_, fun _ => rfl, fun _ => rfl⟩
    simp
  | @cons w m ws ms hw hs ih =>
    obtain ⟨isOver, ws', ms', hturn, ih⟩ := ih
    have hfaces : faces ws' = faces ws := ih.faces_eq
    cases isOver with
    | false =>
      refine ⟨false, w :: ws', m :: ms', by simp [turn, hturn], ?_⟩
      refine ⟨.cons hw ih.canTurn, by simp [hfaces], fun _ => ?_, by simp, by simp⟩
      simp [upcoming, ih.upcoming_eq rfl, hfaces, Match.concat_cons]
    | true =>
      have hlast : upcoming (w :: ws) (m :: ms) = Match.concat (m :: ms) ::
          w.cursor.rest.flatMap fun n => (Match.product (faces ws)).map (n ++ ·) := by
        simp [upcoming, ih.upcoming_last rfl, Match.concat_cons]
      cases hrest : w.cursor.rest with
      | cons n ns =>
        refine ⟨false, { w with cursor := { w.cursor with rest := ns } } :: ws', n :: ms',
          by simp [turn, hturn, Cursor.hasNext, Cursor.next, hrest], ?_⟩
        refine ⟨.cons hw ih.canTurn, by simp [hfaces], fun _ => ?_, by simp, by simp⟩
        rw [hlast]
        simp [upcoming, ih.upcoming_again rfl, hfaces, hrest]
      | nil =>
        obtain ⟨n, ns, hfound⟩ := List.exists_cons_of_ne_nil hw
        refine ⟨true, { w with cursor := { w.cursor with rest := ns } } :: ws', n :: ms',
          by simp [turn, hturn, Cursor.hasNext, Cursor.next, Cursor.reset, hrest, hfound], ?_⟩
        refine ⟨.cons hw ih.canTurn, by simp [hfaces], by simp, fun _ => ?_, fun _ => ?_⟩
        · rw [hlast]
          simp [hrest]
        · simp [upcoming, ih.upcoming_again rfl, hfaces, Match.product, hfound]

/-! ### Odometers -/

/-- An odometer that is not over can turn every wheel. -/
def IsValid (o : Odometer σ) : Prop :=
  o.isOver = false → CanTurn o.wheels o.reading

/-- The combinations an odometer still has to deliver. -/
def remaining (o : Odometer σ) : List Match :=
  if o.isOver then [] else upcoming o.wheels o.reading

/-- **The next combination** of an odometer that is not over is the first one to come, and those
after it remain. -/
theorem next_spec {o : Odometer σ} (hv : o.IsValid) (ho : o.isOver = false) :
    ∃ m o', o.next = (.ok m, o') ∧ o'.IsValid ∧ o.remaining = m :: o'.remaining := by
  obtain ⟨isOver, ws, ms, hturn, ht⟩ := turn_spec (hv ho)
  refine ⟨Match.concat o.reading, ⟨ws, ms, isOver⟩, by simp [next, ho, hturn],
    fun _ => ht.canTurn, ?_⟩
  cases isOver with
  | false => simp [remaining, ho, ht.upcoming_eq rfl]
  | true => simp [remaining, ho, ht.upcoming_last rfl]

/-- An odometer that is over has nothing to deliver. -/
lemma remaining_of_isOver {o : Odometer σ} (h : o.isOver = true) : o.remaining = [] := by
  simp [remaining, h]

/-! ### The first reading -/

/-- All matches of a wheel are still to come. -/
def Rewound (w : Wheel σ) : Prop :=
  w.cursor.rest = w.cursor.found

/-- **The first reading** of wheels that are all rewound. If it is over, some wheel has no match.
Otherwise every wheel shows its first match, and the whole product is to come.

**Proof sketch.** Induction on the wheels. A wheel without a match ends the reading. Otherwise the
first wheel shows its first match, and the combinations with that match come before those with the
matches still on it. -/
theorem firstReading_spec {ws : List (Wheel σ)} (hws : ∀ w ∈ ws, Rewound w) :
    ∃ ws' ms isOver, firstReading ws = (ws', ms, isOver) ∧ faces ws' = faces ws ∧
      (isOver = true → [] ∈ faces ws) ∧
      (isOver = false → CanTurn ws' ms ∧ upcoming ws' ms = Match.product (faces ws)) := by
  induction ws with
  | nil => exact ⟨[], [], false, rfl, rfl, by simp, fun _ => ⟨.nil, rfl⟩⟩
  | cons w ws ih =>
    have hw : w.cursor.rest = w.cursor.found := hws w (by simp)
    obtain ⟨ws', ms, isOver, hfirst, hfaces, hover, hshows⟩ := ih fun v hv => hws v (by simp [hv])
    cases hfound : w.cursor.found with
    | nil =>
      exact ⟨w :: ws, [], true, by simp [firstReading, Cursor.next, hw, hfound], rfl,
        by simp [hfound], by simp⟩
    | cons m found =>
      refine ⟨{ w with cursor := { w.cursor with rest := found } } :: ws', m :: ms, isOver,
        by simp [firstReading, Cursor.next, hw, hfound, hfirst], by simp [hfaces], fun ho => ?_,
        fun ho => ⟨.cons (by simp [hfound]) (hshows ho).1, ?_⟩⟩
      · exact List.mem_cons_of_mem _ (hover ho)
      · simp [upcoming, (hshows ho).2, hfaces, Match.product, hfound]

/-- The odometer at the first reading of the given wheels. -/
def atFirstReading (ws : List (Wheel σ)) : Odometer σ where
  wheels := (firstReading ws).1
  reading := (firstReading ws).2.1
  isOver := (firstReading ws).2.2

/-- **The odometer at the first reading** of rewound wheels holds their matches. It is valid and
delivers the product of them, and the number of its combinations is counted right.

**Proof sketch.** `firstReading_spec`. Where the reading is over some wheel has no match, and the
product is empty (`Match.product_eq_nil`). -/
theorem atFirstReading_spec {ws : List (Wheel σ)} (hws : ∀ w ∈ ws, Rewound w) :
    faces (atFirstReading ws).wheels = faces ws ∧ (atFirstReading ws).IsValid ∧
      (atFirstReading ws).remaining = Match.product (faces ws) ∧
      (atFirstReading ws).combinations = (Match.product (faces ws)).length := by
  obtain ⟨ws', ms, isOver, hfirst, hfaces, hover, hshows⟩ := firstReading_spec hws
  have hat : atFirstReading ws = ⟨ws', ms, isOver⟩ := by rw [atFirstReading, hfirst]
  rw [hat]
  refine ⟨hfaces, fun ho => (hshows ho).1, ?_, ?_⟩
  · cases isOver with
    | false => simp [remaining, (hshows rfl).2]
    | true => simp [remaining, Match.product_eq_nil (hover rfl)]
  · rw [← hfaces, Match.length_product]
    simp [combinations, faces, List.foldr_map, Cursor.size]

end Odometer

end BoundedLogic
