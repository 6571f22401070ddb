import BoundedLogic.Proofs.Odometer.Positions
import BoundedLogic.Proofs.Odometer.Start
import Mathlib.Logic.Function.Iterate

set_option relaxedAutoImplicit false
set_option autoImplicit false

/-!
# The enumeration of an odometer

An odometer can be started as often as one likes, also in the middle of an enumeration or after a
start that failed. What it was used for before leaves no trace in a start that succeeds: the matches
on its wheels are all found anew, and every wheel is rewound. From there it delivers each tuple of
matches once, and is over when there are no more.

## Main definitions

* `BoundedLogic.Odometer.Moves` — what a step of an odometer can do to a wheel.
* `BoundedLogic.Odometer.Reached` — the states the odometer of a list of bindings can get into.
* `BoundedLogic.Odometer.after` — an odometer after a number of combinations were asked of it.
* `BoundedLogic.Odometer.Delivers` — the combinations of a list are delivered one after another, and
  then no more.
* `BoundedLogic.Odometer.Enumerates` — the combinations at tuples of positions are delivered one
  after another, and then no more.

## Main results

* `BoundedLogic.Odometer.start_enumerates_product` — what an odometer delivers after a start that
  succeeds, whatever it was used for before.
-/

namespace BoundedLogic

namespace Odometer

variable {σ : Type} {lenient : Bool} {env : Context} {config : EngineConfig} {s t : Session σ}

/-! ### What a step can do -/

/-- What a step can do to a wheel: nothing, or turn it to its next match, or to its first one
again. -/
inductive Moves (w : Wheel σ) : Wheel σ → Prop
  | stays : Moves w w
  | next : Moves w { w with cursor := w.cursor.next.2 }
  | again : Moves w { w with cursor := w.cursor.reset.next.2 }

/-- It can do nothing to all wheels. -/
lemma forall₂_moves_self (ws : List (Wheel σ)) : List.Forall₂ Moves ws ws :=
  List.forall₂_same.mpr fun _ _ => .stays

/-- **The first reading** turns wheels to their next matches. -/
lemma forall₂_moves_firstReading (ws : List (Wheel σ)) :
    List.Forall₂ Moves ws (firstReading ws).1 := by
  induction ws with
  | nil => exact .nil
  | cons w ws ih =>
    have hnext : Moves w { w with cursor := w.cursor.next.2 } := .next
    rw [firstReading]
    rcases hn : w.cursor.next with ⟨e | m, c⟩
    · exact forall₂_moves_self (w :: ws)
    · rw [hn] at hnext
      exact .cons hnext ih

/-- **A turn** moves some wheels, and shows as many matches as before. -/
lemma forall₂_moves_turn (ws : List (Wheel σ)) (ms : List Match) :
    List.Forall₂ Moves ws (turn ws ms).2.1 ∧ (turn ws ms).2.2.length = ms.length := by
  induction ws generalizing ms with
  | nil => cases ms <;> exact ⟨.nil, rfl⟩
  | cons w ws ih =>
    cases ms with
    | nil => exact ⟨forall₂_moves_self (w :: ws), rfl⟩
    | cons m ms =>
      have htail := ih ms
      have hnext : Moves w { w with cursor := w.cursor.next.2 } := .next
      have hagain : Moves w { w with cursor := w.cursor.reset.next.2 } := .again
      rw [turn]
      rcases hturn : turn ws ms with ⟨e | _ | _, ws', ms'⟩ <;> rw [hturn] at htail <;>
        obtain ⟨hmoves, hlength⟩ := htail
      · exact ⟨.cons .stays hmoves, by simpa using hlength⟩
      · exact ⟨.cons .stays hmoves, by simpa using hlength⟩
      · dsimp only
        split
        · rcases hn : w.cursor.next with ⟨e | n, c⟩ <;> rw [hn] at hnext <;>
            exact ⟨.cons hnext hmoves, by simpa using hlength⟩
        · rcases hn : w.cursor.reset.next with ⟨e | n, c⟩ <;> rw [hn] at hagain <;>
            exact ⟨.cons hagain hmoves, by simpa using hlength⟩

/-! ### What never changes about an odometer -/

/-- A step changes neither the pattern of a wheel nor its matches. -/
lemma Moves.same_matches {w w' : Wheel σ} (h : Moves w w') :
    w'.cursor.pattern = w.cursor.pattern ∧ w'.cursor.found = w.cursor.found := by
  have hnext : ∀ c : Cursor, c.next.2.pattern = c.pattern ∧ c.next.2.found = c.found := by
    intro c
    cases hrest : c.rest <;> simp [Cursor.next, hrest]
  cases h with
  | stays => exact ⟨rfl, rfl⟩
  | next => exact hnext w.cursor
  | again => exact hnext w.cursor.reset

/-- A step changes no fixed part. -/
lemma fixedParts_of_moves {ws ws' : List (Wheel σ)} (h : List.Forall₂ Moves ws ws') :
    fixedParts ws' = fixedParts ws := by
  induction h with
  | nil => rfl
  | cons hw _ ih =>
    rw [fixedParts_cons, fixedParts_cons, ih, hw.same_matches.1]
    cases hw <;> rfl

/-- Asking for a combination changes no fixed part. -/
lemma fixedParts_next (o : Odometer σ) : fixedParts o.next.2.wheels = fixedParts o.wheels := by
  rw [next]
  split
  case isTrue => rfl
  case isFalse =>
    have hturn := fixedParts_of_moves (forall₂_moves_turn o.wheels o.reading).1
    rcases h : turn o.wheels o.reading with ⟨_ | _, ws, ms⟩ <;> simpa [h] using hturn

/-- A start of an odometer of some bindings changes no fixed part, whether it succeeds or not. -/
lemma fixedParts_start {bs : List (Binding σ)} {o o' : Odometer σ}
    (ho : fixedParts o.wheels = fixedParts (freshWheels 0 bs)) {failure : Option EvalError}
    (h : (o.start lenient env).result config s = (.ok (o', failure), t)) :
    fixedParts o'.wheels = fixedParts (freshWheels 0 bs) := by
  cases failure with
  | none =>
    obtain ⟨values, hvalues, rfl⟩ := exists_values_of_start ho h
    exact (fixedParts_of_moves (forall₂_moves_firstReading _)).trans
      (fixedParts_loadedWheels config.allPossibilities 0 (Binding.length_of_resolveEach hvalues))
  | some e =>
    obtain ⟨before, b, after, values, u, loaded, rfl, hbefore, -, rfl, rfl⟩ :=
      exists_loaded_of_start ho h
    have hloaded := fixedParts_loadedWheels config.allPossibilities 0
      (Binding.length_of_resolveEach hbefore)
    rw [freshWheels_append, fixedParts_append, ← hloaded] at ho
    rw [freshWheels_append, fixedParts_append, fixedParts_append, ← hloaded, fixedParts_drop, ho,
      ← length_fixedParts, List.drop_left]

/-- The states an odometer of the bindings can get into: it may have been started, with or without
success, and combinations may have been asked of it, in any order. -/
inductive Reached (bs : List (Binding σ)) : Odometer σ → Prop
  | fresh : Reached bs (ofBindings bs)
  | started {o o' : Odometer σ} {lenient : Bool} {env : Context} {config : EngineConfig}
      {s t : Session σ} {failure : Option EvalError} (h : Reached bs o)
      (hstart : (o.start lenient env).result config s = (.ok (o', failure), t)) : Reached bs o'
  | turned {o : Odometer σ} (h : Reached bs o) : Reached bs o.next.2

/-- What is fixed by the bindings is the same in every state. -/
lemma Reached.fixedParts_eq {bs : List (Binding σ)} {o : Odometer σ} (h : Reached bs o) :
    fixedParts o.wheels = fixedParts (freshWheels 0 bs) := by
  induction h with
  | fresh => rw [wheels_ofBindings]
  | started _ hstart ih => exact fixedParts_start ih hstart
  | @turned o _ ih => exact (fixedParts_next o).trans ih

/-! ### Asking for one combination after another -/

/-- The odometer after `n` combinations were asked of it. -/
def after (o : Odometer σ) (n : Nat) : Odometer σ :=
  (fun o => o.next.2)^[n] o

lemma after_succ (o : Odometer σ) (n : Nat) : o.after (n + 1) = (o.after n).next.2 :=
  Function.iterate_succ_apply' _ n o

/-- An odometer that is over stays as it is, and is asked in vain. -/
lemma next_of_isOver {o : Odometer σ} (h : o.isOver = true) : o.next = (.error .exhausted, o) :=
  if_pos h

/-- Asking for a combination keeps an odometer valid, and takes the first one to come away. -/
lemma IsValid.next {o : Odometer σ} (hv : o.IsValid) :
    o.next.2.IsValid ∧ o.next.2.remaining = o.remaining.tail := by
  cases ho : o.isOver with
  | true =>
    rw [next_of_isOver ho, remaining_of_isOver ho]
    exact ⟨hv, rfl⟩
  | false =>
    obtain ⟨m, o', hnext, hv', hremaining⟩ := next_spec hv ho
    rw [hnext, hremaining]
    exact ⟨hv', rfl⟩

/-- **After `n` combinations** were asked of it, an odometer is valid and has all but the first `n`
to deliver. -/
lemma IsValid.after {o : Odometer σ} (hv : o.IsValid) (n : Nat) :
    (o.after n).IsValid ∧ (o.after n).remaining = o.remaining.drop n := by
  induction n with
  | zero => exact ⟨hv, rfl⟩
  | succ n ih =>
    rw [after_succ, ih.1.next.2, ih.2, List.tail_drop]
    exact ⟨ih.1.next.1, rfl⟩

/-- An odometer that is not over has a combination to deliver. -/
lemma IsValid.hasNext_iff {o : Odometer σ} (hv : o.IsValid) :
    o.hasNext = true ↔ o.remaining ≠ [] := by
  cases ho : o.isOver with
  | true => simp [hasNext, ho, remaining_of_isOver ho]
  | false =>
    obtain ⟨m, o', -, -, hremaining⟩ := next_spec hv ho
    simp [hasNext, ho, hremaining]

/-- What an odometer returns when it is asked is the first combination to come, or that there is
none. -/
lemma IsValid.next_fst {o : Odometer σ} (hv : o.IsValid) :
    o.next.1 = match o.remaining.head? with
      | some m => .ok m
      | none => .error .exhausted := by
  cases ho : o.isOver with
  | true =>
    rw [next_of_isOver ho, remaining_of_isOver ho]
    rfl
  | false =>
    obtain ⟨m, o', hnext, -, hremaining⟩ := next_spec hv ho
    rw [hnext, hremaining]
    rfl

/-- The odometer delivers the combinations of a list. -/
structure Delivers (o : Odometer σ) (ms : List Match) : Prop where
  /-- They are returned one after another, and after the last one it is said each time that there
  are no more. -/
  next_eq : ∀ n, (o.after n).next.1 =
    match ms[n]? with
    | some m => .ok m
    | none => .error .exhausted
  /-- There is a next one exactly as long as one is left. -/
  hasNext_iff : ∀ n, (o.after n).hasNext = true ↔ n < ms.length

/-- **A valid odometer** delivers the combinations that are to come. -/
theorem IsValid.delivers {o : Odometer σ} (hv : o.IsValid) : o.Delivers o.remaining where
  next_eq n := by rw [(hv.after n).1.next_fst, (hv.after n).2, List.head?_drop]
  hasNext_iff n := by
    rw [(hv.after n).1.hasNext_iff, (hv.after n).2, Ne, List.drop_eq_nil_iff, Nat.not_le]

/-! ### The enumeration -/

/-- The odometer delivers the combinations of the lists at the given tuples of positions, which are
all such tuples in lexicographic order. -/
structure Enumerates (o : Odometer σ) (mss : List (List Match)) (tuples : List (List Nat)) :
    Prop where
  /-- The tuples are those that take one position in each list. -/
  mem_iff : ∀ is, is ∈ tuples ↔ List.Forall₂ (fun i ms => i < ms.length) is mss
  /-- Each of them is there once, and the last position changes fastest. -/
  increasing : tuples.Pairwise (· < ·)
  /-- The combinations at the tuples are returned one after another, and after the last one it is
  said each time that there are no more. -/
  next_eq : ∀ n, (o.after n).next.1 =
    match tuples[n]? with
    | some is => .ok (Match.combine mss is)
    | none => .error .exhausted
  /-- There is a next one exactly as long as a tuple is left. -/
  hasNext_iff : ∀ n, (o.after n).hasNext = true ↔ n < tuples.length
  /-- As long as there is one, every wheel has its place in the reading. -/
  length_reading : ∀ n, (o.after n).hasNext = true →
    (o.after n).reading.length = (o.after n).wheels.length

/-- A valid odometer that has a product of lists to deliver enumerates them.

**Proof sketch.** The product is delivered (`IsValid.delivers`), and it is listed by position
(`Match.product_eq_map_combine`). -/
lemma IsValid.enumerates {o : Odometer σ} (hv : o.IsValid) {mss : List (List Match)}
    (h : o.remaining = Match.product mss) :
    Enumerates o mss (positionTuples (mss.map List.length)) := by
  have hdelivers := hv.delivers
  rw [h, Match.product_eq_map_combine] at hdelivers
  refine ⟨fun is => ?_, pairwise_positionTuples _, fun n => ?_, fun n => ?_, fun n hn => ?_⟩
  · rw [mem_positionTuples_iff, List.forall₂_map_right_iff]
  · rw [hdelivers.next_eq, List.getElem?_map]
    cases (positionTuples (mss.map List.length))[n]? <;> rfl
  · rw [hdelivers.hasNext_iff, List.length_map]
  · have hover : (o.after n).isOver = false := by simpa [hasNext] using hn
    exact ((hv.after n).1 hover).length_eq.symm

/-- Where the bindings can be worked out their odometer starts, whatever it was used for before, and
delivers the combinations of the bindings. -/
theorem Reached.start_of_ok {bs : List (Binding σ)} {o : Odometer σ} (h : Reached bs o)
    {values : List (List Value)}
    (hvalues : (Binding.resolveEach lenient env bs).result config s = (.ok values, t)) :
    ∃ o', (o.start lenient env).result config s = (.ok (o', none), t) ∧
      o'.Delivers (Binding.combinations config.allPossibilities bs values) := by
  obtain ⟨-, hvalid, hremaining, -⟩ :=
    atFirstReading_loadedWheels config.allPossibilities bs values
  exact ⟨_, Odometer.start_of_ok h.fixedParts_eq hvalues, hremaining ▸ hvalid.delivers⟩

/-- Where they cannot, it fails to start for the same reason. -/
theorem Reached.start_of_error {bs : List (Binding σ)} {o : Odometer σ} (h : Reached bs o)
    {e : EvalError}
    (herror : (Binding.resolveEach lenient env bs).result config s = (.error e, t)) :
    ∃ o', (o.start lenient env).result config s = (.ok (o', some e), t) := by
  obtain ⟨before, b, after, values, u, rfl, hbefore, hfail⟩ :=
    Binding.exists_of_resolveEach_eq_error herror
  exact ⟨_, Odometer.start_of_error h.fixedParts_eq hbefore hfail rfl⟩

/-- **The enumeration of an odometer.** Whatever the odometer of some bindings was used for before,
once it is started with success its wheels hold what the patterns find in the values of their
bindings, and it delivers the combinations of these matches, at each tuple of positions one, in
lexicographic order with the last position fastest, and none after them. There is none if some
wheel has no match, and one, which is empty, if there are no bindings. -/
theorem start_enumerates_product {bs : List (Binding σ)} {o o' : Odometer σ} (h : Reached bs o)
    (hstart : (o.start lenient env).result config s = (.ok (o', none), t)) :
    ∃ values tuples, (Binding.resolveEach lenient env bs).result config s = (.ok values, t) ∧
      faces o'.wheels =
        (List.zipWith (Binding.found config.allPossibilities) bs values).flatten ∧
      Enumerates o' (faces o'.wheels) tuples ∧ ([] ∈ faces o'.wheels → tuples = []) ∧
      (bs = [] → tuples.map (Match.combine (faces o'.wheels)) = [.empty]) := by
  obtain ⟨values, hvalues, rfl⟩ := exists_values_of_start h.fixedParts_eq hstart
  obtain ⟨hfaces, hvalid, hremaining, -⟩ :=
    atFirstReading_loadedWheels config.allPossibilities bs values
  rw [Binding.combinations, ← hfaces] at hremaining
  refine ⟨values, _, hvalues, hfaces, hvalid.enumerates hremaining, fun hempty => ?_, ?_⟩
  · have hproduct := Match.product_eq_nil hempty
    rw [Match.product_eq_map_combine] at hproduct
    exact List.map_eq_nil_iff.mp hproduct
  · rintro rfl
    rw [hfaces, ← Match.product_eq_map_combine]
    rfl

/-- The bindings `x in set {1, 2}, y in set {3}`. -/
def bindingsXY : List (Binding Unit) :=
  [.overIntegers ["x"] [1, 2], .overIntegers ["y"] [3]]

/-- The odometer of these bindings at its first combination. -/
def firstXY : Odometer Unit :=
  ⟨[⟨0, .overIntegers ["x"] [1, 2], ⟨.name "x", [.single "x" (.int 1), .single "x" (.int 2)],
      [.single "x" (.int 2)]⟩⟩,
    ⟨1, .overIntegers ["y"] [3], ⟨.name "y", [.single "y" (.int 3)], []⟩⟩],
    [.single "x" (.int 1), .single "y" (.int 3)], false⟩

/-- Started again after its first combination was asked for, the odometer of `x in set {1, 2}, y in
set {3}` goes through all its combinations. -/
theorem start_enumerates_product_firstXY :
    Reached bindingsXY firstXY.next.2 ∧
      (firstXY.next.2.start false .root).result {} (.running []) =
        (.ok (firstXY, none), .running []) ∧
      ∃ values tuples, (Binding.resolveEach false .root bindingsXY).result {} (.running []) =
          (.ok values, .running []) ∧
        faces firstXY.wheels = (List.zipWith (Binding.found false) bindingsXY values).flatten ∧
        Enumerates firstXY (faces firstXY.wheels) tuples ∧
        ([] ∈ faces firstXY.wheels → tuples = []) ∧
        (bindingsXY = [] → tuples.map (Match.combine (faces firstXY.wheels)) = [.empty]) := by
  have hfirst : ((ofBindings bindingsXY).start false .root).result {} (.running []) =
      (.ok (firstXY, none), .running []) := rfl
  have hreached : Reached bindingsXY firstXY.next.2 := .turned (.started .fresh hfirst)
  have hagain : (firstXY.next.2.start false .root).result {} (.running []) =
      (.ok (firstXY, none), .running []) := rfl
  exact ⟨hreached, hagain, start_enumerates_product hreached hagain⟩

end Odometer

end BoundedLogic
