import BoundedLogic.Proofs.Odometer.Enumeration

set_option relaxedAutoImplicit false
set_option autoImplicit false

/-!
# After a start that failed

A start that fails has rewound the wheels of the bindings before the one that failed, with what
their patterns find in the new values. The other wheels, the reading that comes next and whether the
enumeration is over are still those of the enumeration before. An odometer that was over is over
then; but one that was not goes on. It delivers the old reading, turns the new wheels together with
the old ones, and after that begins with all combinations of both; if a wheel has no match by then,
it comes to a turn that fails although a combination is said to come.

So a start that fails in the middle of an enumeration is noticed in general, and the condition under
which it is not can be given exactly.

## Main definitions

* `BoundedLogic.Odometer.InOrder` — what holds of an odometer in every state that can be reached.
* `BoundedLogic.Odometer.RunsDry` — turning the wheels on comes to a turn that fails.
* `BoundedLogic.Odometer.Undisturbed` — an odometer is over, or does what another one would do, and
  never fails while a combination is said to come.

## Main results

* `BoundedLogic.Odometer.Reached.inOrder` — all states are in order.
* `BoundedLogic.Odometer.runsDry_of_mem_faces` — with a wheel without matches the turning fails.
* `BoundedLogic.Odometer.failed_start_undisturbed_iff` — what a failed start leaves, and when it
  goes unnoticed.
-/

namespace BoundedLogic

namespace Odometer

variable {σ : Type} {lenient : Bool} {env : Context} {config : EngineConfig} {s t : Session σ}

/-! ### What holds in every state -/

/-- What is still to come on each wheel are the last of its matches. -/
def RestsAreLast (ws : List (Wheel σ)) : Prop :=
  ∀ w ∈ ws, w.cursor.rest <:+ w.cursor.found

/-- While the odometer is not over there is a match to show for each wheel, and what is still to
come on a wheel are the last of its matches. -/
structure InOrder (o : Odometer σ) : Prop where
  /-- The reading is complete. -/
  length_eq : o.isOver = false → o.wheels.length = o.reading.length
  /-- The wheels have been turned from their first matches on. -/
  restsAreLast : RestsAreLast o.wheels

/-- Taking the next match leaves the last ones. -/
lemma rest_next_suffix {c : Cursor} (h : c.rest <:+ c.found) :
    c.next.2.rest <:+ c.next.2.found := by
  cases hrest : c.rest with
  | nil => simp [Cursor.next, hrest]
  | cons m ms =>
    rw [hrest] at h
    simpa [Cursor.next, hrest] using (List.suffix_cons m ms).trans h

/-- After a step they still are the last ones. -/
lemma restsAreLast_of_moves {ws ws' : List (Wheel σ)} (h : List.Forall₂ Moves ws ws')
    (hlast : RestsAreLast ws) : RestsAreLast ws' := by
  induction h with
  | nil => exact hlast
  | @cons w w' ws ws' hmove _ ih =>
    obtain ⟨hw, hws⟩ := List.forall_mem_cons.mp hlast
    refine List.forall_mem_cons.mpr ⟨?_, ih hws⟩
    cases hmove with
    | stays => exact hw
    | next => exact rest_next_suffix hw
    | again =>
      have hreset : w.cursor.reset.rest <:+ w.cursor.reset.found := List.suffix_rfl
      exact rest_next_suffix hreset

/-- **Every state is in order**: at first, after a start, failed or not, and after a turn. -/
theorem Reached.inOrder {bs : List (Binding σ)} {o : Odometer σ} (h : Reached bs o) :
    o.InOrder := by
  induction h with
  | fresh =>
    refine ⟨fun hover => Bool.noConfusion hover, fun w hw => ?_⟩
    obtain ⟨b, -, hb⟩ := List.mem_flatMap.mp hw
    obtain ⟨p, -, rfl⟩ := List.mem_map.mp hb
    exact List.nil_suffix
  | @started o o' lenient env config s t failure h hstart ih =>
    have hloaded : ∀ {bs : List (Binding σ)} {values : List (List Value)},
        RestsAreLast (loadedWheels config.allPossibilities 0 bs values) := by
      intro bs values w hw
      exact (rewound_of_mem_loadedWheels hw : w.cursor.rest = w.cursor.found) ▸ List.suffix_rfl
    cases failure with
    | none =>
      obtain ⟨values, -, rfl⟩ := exists_values_of_start h.fixedParts_eq hstart
      have hvalid := (atFirstReading_loadedWheels config.allPossibilities bs values).2.1
      exact ⟨fun hover => (canTurn_iff.mp (hvalid hover)).1,
        restsAreLast_of_moves (forall₂_moves_firstReading _) hloaded⟩
    | some e =>
      have hlength : o'.wheels.length = o.wheels.length := by
        rw [← length_fixedParts, (Reached.started h hstart).fixedParts_eq, ← h.fixedParts_eq,
          length_fixedParts]
      obtain ⟨before, b, after, values, u, loaded, -, -, -, rfl, rfl⟩ :=
        exists_loaded_of_start h.fixedParts_eq hstart
      refine ⟨fun hover => hlength.trans (ih.length_eq hover), fun w hw => ?_⟩
      rcases List.mem_append.mp hw with hw | hw
      · exact hloaded w hw
      · exact ih.restsAreLast w (List.mem_of_mem_drop hw)
  | @turned o _ ih =>
    rw [next]
    split
    case isTrue => exact ih
    case isFalse hover =>
      have hlength := ih.length_eq (by simpa using hover)
      obtain ⟨hmoves, hreading⟩ := forall₂_moves_turn o.wheels o.reading
      have hlast := restsAreLast_of_moves hmoves ih.restsAreLast
      rw [hmoves.length_eq, ← hreading] at hlength
      rcases hturn : turn o.wheels o.reading with ⟨e | isOver, ws, ms⟩ <;>
        rw [hturn] at hlength hlast <;> exact ⟨fun _ => hlength, hlast⟩

/-! ### Wheels without matches -/

/-- Turning the wheels on comes to a turn that fails, and no turn before it carries over. -/
inductive RunsDry : List (Wheel σ) → List Match → Prop
  | now {ws ws' : List (Wheel σ)} {ms ms' : List Match}
    (h : turn ws ms = (.error .exhausted, ws', ms')) : RunsDry ws ms
  | later {ws ws' : List (Wheel σ)} {ms ms' : List Match} (h : turn ws ms = (.ok false, ws', ms'))
    (hs : RunsDry ws' ms') : RunsDry ws ms

/-- A wheel before them is not reached. -/
lemma RunsDry.cons {ws : List (Wheel σ)} {ms : List Match} (h : RunsDry ws ms) (w : Wheel σ)
    (m : Match) : RunsDry (w :: ws) (m :: ms) := by
  induction h with
  | @now ws ws' ms ms' h =>
    have hturn : turn (w :: ws) (m :: ms) = (.error .exhausted, w :: ws', m :: ms') := by
      simp [turn, h]
    exact .now hturn
  | @later ws ws' ms ms' h _ ih =>
    have hturn : turn (w :: ws) (m :: ms) = (.ok false, w :: ws', m :: ms') := by
      simp [turn, h]
    exact .later hturn ih

/-- A wheel without matches fails as soon as the wheels behind it carry over, which they do when
they have gone through their combinations. -/
lemma runsDry_of_found_eq_nil {w : Wheel σ} (hfound : w.cursor.found = [])
    (hrest : w.cursor.rest = []) {ws : List (Wheel σ)} {ms : List Match} (h : CanTurn ws ms)
    (m : Match) : RunsDry (w :: ws) (m :: ms) := by
  obtain ⟨isOver, ws', ms', hturn, ht⟩ := turn_spec h
  cases isOver with
  | true =>
    have hdry : turn (w :: ws) (m :: ms) =
        (.error .exhausted, { w with cursor := w.cursor.reset } :: ws', m :: ms') := by
      simp [turn, hturn, Cursor.hasNext, Cursor.next, Cursor.reset, hfound, hrest]
    exact .now hdry
  | false =>
    have hcarry : turn (w :: ws) (m :: ms) = (.ok false, w :: ws', m :: ms') := by
      simp [turn, hturn]
    have hshorter : (upcoming ws' ms').length < (upcoming ws ms).length := by
      rw [ht.upcoming_eq rfl, List.length_cons]
      omega
    exact .later hcarry (runsDry_of_found_eq_nil hfound hrest ht.canTurn m)
termination_by (upcoming ws ms).length

/-- **With a wheel without matches** the turning fails in the end.

**Proof sketch.** Induction on the wheels. The last wheel without matches is the one that fails, as
the wheels behind it can turn and carry over at some time (`runsDry_of_found_eq_nil`). Wheels before
it are not reached. -/
theorem runsDry_of_mem_faces {ws : List (Wheel σ)} {ms : List Match}
    (hlength : ws.length = ms.length) (hlast : RestsAreLast ws) (hempty : [] ∈ faces ws) :
    RunsDry ws ms := by
  induction ws generalizing ms with
  | nil => cases hempty
  | cons w ws ih =>
    obtain ⟨m, ms, rfl⟩ := List.exists_cons_of_length_eq_add_one hlength.symm
    obtain ⟨hw, hws⟩ := List.forall_mem_cons.mp hlast
    by_cases htail : [] ∈ faces ws
    · exact (ih (Nat.succ.inj hlength) hws htail).cons w m
    · have hfound : w.cursor.found = [] := by
        rw [faces_cons, List.mem_cons] at hempty
        exact (hempty.resolve_right htail).symm
      rw [hfound, List.suffix_nil] at hw
      exact runsDry_of_found_eq_nil hfound hw (canTurn_iff.mpr ⟨Nat.succ.inj hlength, htail⟩) m

/-- An odometer whose turning fails in the end then fails while a combination is said to come. -/
lemma RunsDry.exists_exhausted {ws : List (Wheel σ)} {ms : List Match} (h : RunsDry ws ms) :
    ∃ n, ((⟨ws, ms, false⟩ : Odometer σ).after n).hasNext = true ∧
      ((⟨ws, ms, false⟩ : Odometer σ).after n).next.1 = .error .exhausted := by
  induction h with
  | now h => exact ⟨0, rfl, by simp [after, next, h]⟩
  | @later ws ws' ms ms' h _ ih =>
    obtain ⟨n, hnext, hfail⟩ := ih
    have hstep : (⟨ws, ms, false⟩ : Odometer σ).after (n + 1) =
        (⟨ws', ms', false⟩ : Odometer σ).after n := by
      rw [after, Function.iterate_succ_apply, ← after]
      simp [next, h]
    exact ⟨n + 1, hstep ▸ hnext, hstep ▸ hfail⟩

namespace InOrder

variable {o : Odometer σ}

/-- An odometer that is not over fails in the end if some wheel has no match. -/
lemma exists_exhausted (h : o.InOrder) (ho : o.isOver = false) (hempty : [] ∈ faces o.wheels) :
    ∃ n, (o.after n).hasNext = true ∧ (o.after n).next.1 = .error .exhausted := by
  have hdry := runsDry_of_mem_faces (h.length_eq ho) h.restsAreLast hempty
  obtain ⟨ws, ms, isOver⟩ := o
  obtain rfl : isOver = false := ho
  exact hdry.exists_exhausted

/-- Otherwise it delivers the combinations from the present reading on. -/
lemma delivers (h : o.InOrder) (ho : o.isOver = false) (hempty : [] ∉ faces o.wheels) :
    o.Delivers (upcoming o.wheels o.reading) := by
  have hvalid : o.IsValid := fun _ => canTurn_iff.mpr ⟨h.length_eq ho, hempty⟩
  have hdelivers := hvalid.delivers
  rwa [remaining, ho, if_neg Bool.false_ne_true] at hdelivers

end InOrder

/-! ### Old and new matches -/

/-- Where the first wheel is rewound, whatever is shown, all combinations are to come after those
with what is shown for that wheel. -/
lemma upcoming_of_rewound {w : Wheel σ} (hw : Rewound w) (ws : List (Wheel σ)) (m : Match)
    (ms : List Match) : upcoming (w :: ws) (m :: ms) =
      (upcoming ws ms).map (m ++ ·) ++ Match.product (faces (w :: ws)) := by
  rw [upcoming, hw]
  rfl

/-- At least the present combination is to come. -/
lemma upcoming_ne_nil {ws : List (Wheel σ)} {ms : List Match} (h : CanTurn ws ms) :
    upcoming ws ms ≠ [] := by
  obtain ⟨isOver, ws', ms', -, ht⟩ := turn_spec h
  cases isOver with
  | true => simp [ht.upcoming_last rfl]
  | false => simp [ht.upcoming_eq rfl]

/-- What an odometer delivers is told by what it returns. -/
lemma Delivers.eq_of_next_eq {o o' : Odometer σ} {ms ms' : List Match} (h : o.Delivers ms)
    (h' : o'.Delivers ms') (hnext : ∀ n, (o'.after n).next.1 = (o.after n).next.1) : ms' = ms := by
  apply List.ext_getElem?
  intro n
  have heq := hnext n
  rw [h'.next_eq, h.next_eq] at heq
  cases hm' : ms'[n]? <;> cases hm : ms[n]? <;> simp_all

/-- The second odometer, which came of the first one, goes on as if nothing had happened, or it is
over; and it never says that a combination is to come and then fails. -/
structure Undisturbed (o o' : Odometer σ) : Prop where
  /-- It is over, or it does each time what the first one would do. -/
  over_or_same : o'.hasNext = false ∨ ∀ n, (o'.after n).next.1 = (o.after n).next.1 ∧
    (o'.after n).hasNext = (o.after n).hasNext
  /-- It does not fail while a combination is said to come. -/
  never_exhausted : ∀ n, (o'.after n).hasNext = true → (o'.after n).next.1 ≠ .error .exhausted

/-- An odometer that is over at least fails as it should. -/
lemma undisturbed_of_isOver (o : Odometer σ) {o' : Odometer σ} (h : o'.isOver = true) :
    Undisturbed o o' := by
  have hvalid : o'.IsValid := fun hover => Bool.noConfusion (h.symm.trans hover)
  have hdelivers := hvalid.delivers
  rw [remaining_of_isOver h] at hdelivers
  refine ⟨.inl (by simp [hasNext, h]), fun n hn => ?_⟩
  exact absurd ((hdelivers.hasNext_iff n).mp hn) (Nat.not_lt_zero n)

/-- An odometer that delivers the same combinations goes on as if nothing had happened. -/
lemma Delivers.undisturbed {o o' : Odometer σ} {ms : List Match} (h : o.Delivers ms)
    (h' : o'.Delivers ms) : Undisturbed o o' := by
  refine ⟨.inr fun n => ⟨?_, ?_⟩, fun n hn => ?_⟩
  · rw [h'.next_eq, h.next_eq]
  · rw [Bool.eq_iff_iff, h'.hasNext_iff, h.hasNext_iff]
  · rw [h'.next_eq, List.getElem?_eq_getElem ((h'.hasNext_iff n).mp hn)]
    exact nofun

/-- Two odometers in order that are not over: the second one goes on like the first one exactly if
all wheels of both have matches and the same combinations are to come.

**Proof sketch.** With a wheel without matches the turning fails in the end
(`InOrder.exists_exhausted`). Otherwise both deliver what is to come (`InOrder.delivers`), and from
what they return this can be told (`Delivers.eq_of_next_eq`). -/
lemma InOrder.undisturbed_iff {o o' : Odometer σ} (h : o.InOrder) (h' : o'.InOrder)
    (ho : o.isOver = false) (ho' : o'.isOver = false) :
    Undisturbed o o' ↔ [] ∉ faces o.wheels ∧ [] ∉ faces o'.wheels ∧
      upcoming o'.wheels o'.reading = upcoming o.wheels o.reading := by
  constructor
  · intro hundisturbed
    have hsame := hundisturbed.over_or_same.resolve_left (by simp [hasNext, ho'])
    have hempty' : [] ∉ faces o'.wheels := by
      intro hempty
      obtain ⟨n, hnext, hfail⟩ := h'.exists_exhausted ho' hempty
      exact hundisturbed.never_exhausted n hnext hfail
    have hempty : [] ∉ faces o.wheels := by
      intro hempty
      obtain ⟨n, hnext, hfail⟩ := h.exists_exhausted ho hempty
      exact hundisturbed.never_exhausted n ((hsame n).2.trans hnext) ((hsame n).1.trans hfail)
    exact ⟨hempty, hempty', (h.delivers ho hempty).eq_of_next_eq (h'.delivers ho' hempty')
      fun n => (hsame n).1⟩
  · rintro ⟨hempty, hempty', hsame⟩
    have hdelivers' := h'.delivers ho' hempty'
    rw [hsame] at hdelivers'
    exact (h.delivers ho hempty).undisturbed hdelivers'

/-- **After a failed start.** The bindings before the one that failed were worked out; their wheels
are rewound and hold what is found in the new values, and everything else is as it was.

An odometer that was not over, and that has no wheel without matches now, delivers the combinations
from the old reading on. If any wheel was loaded these are some that begin with an old match,
followed by all combinations of what the wheels hold now, new matches and old ones. If some wheel is
without matches it comes to fail although it says that there is a combination to come.

A start that fails goes unnoticed exactly if the odometer was over, or if no wheel is without
matches, before and after, and the same combinations are to come. -/
theorem failed_start_undisturbed_iff {bs : List (Binding σ)} {o o' : Odometer σ} {e : EvalError}
    (h : Reached bs o)
    (hstart : (o.start lenient env).result config s = (.ok (o', some e), t)) :
    (∃ before b after values u loaded, bs = before ++ b :: after ∧
      (Binding.resolveEach lenient env before).result config s = (.ok values, u) ∧
      (b.draw lenient env).result config u = (.error e, t) ∧
      loaded = loadedWheels config.allPossibilities 0 before values ∧
      o' = { o with wheels := loaded ++ o.wheels.drop loaded.length } ∧
      (o.hasNext = true → [] ∉ faces o'.wheels →
        o'.Delivers (upcoming o'.wheels o.reading) ∧
        (loaded ≠ [] → ∃ stale, stale ≠ [] ∧
          upcoming o'.wheels o.reading = stale ++ Match.product (faces o'.wheels))) ∧
      (o.hasNext = true → [] ∈ faces o'.wheels →
        ∃ n, (o'.after n).hasNext = true ∧ (o'.after n).next.1 = .error .exhausted)) ∧
    (Undisturbed o o' ↔ (o.hasNext = true → [] ∉ faces o.wheels ∧ [] ∉ faces o'.wheels ∧
      upcoming o'.wheels o.reading = upcoming o.wheels o.reading)) := by
  have hin := h.inOrder
  have hin' := (Reached.started h hstart).inOrder
  obtain ⟨before, b, after, values, u, loaded, hbs, hbefore, hfail, hloaded, ho'⟩ :=
    exists_loaded_of_start h.fixedParts_eq hstart
  have hreading : o'.reading = o.reading := by rw [ho']
  have hover : o'.isOver = o.isOver := by rw [ho']
  have hgoes_iff : o.hasNext = true ↔ o'.isOver = false := by simp [hover, hasNext]
  refine ⟨⟨before, b, after, values, u, loaded, hbs, hbefore, hfail, hloaded, ho',
    fun hgoes hempty => ?_, fun hgoes => hin'.exists_exhausted (hgoes_iff.mp hgoes)⟩, ?_⟩
  · have hgoes' := hgoes_iff.mp hgoes
    refine ⟨hreading ▸ hin'.delivers hgoes' hempty, fun hne => ?_⟩
    obtain ⟨w, ws, hcons⟩ := List.exists_cons_of_ne_nil hne
    have hw : Rewound w := rewound_of_mem_loadedWheels (hloaded ▸ hcons ▸ List.mem_cons_self)
    have hcan := canTurn_iff.mpr ⟨hin'.length_eq hgoes', hempty⟩
    have hwheels : o'.wheels = w :: (ws ++ o.wheels.drop loaded.length) := by
      rw [ho', hcons, List.cons_append]
    rw [hwheels, hreading] at hcan
    obtain ⟨m, ms, -, htail, hms⟩ := List.forall₂_cons_left_iff.mp hcan
    rw [hwheels, hms, upcoming_of_rewound hw]
    exact ⟨_, List.map_eq_nil_iff.not.mpr (upcoming_ne_nil htail), rfl⟩
  · cases hgoes : o.isOver with
    | true =>
      simp only [hasNext, hgoes, Bool.not_true, Bool.false_eq_true, false_implies, iff_true]
      exact undisturbed_of_isOver o (hover.trans hgoes)
    | false =>
      rw [hin.undisturbed_iff hin' hgoes (hover.trans hgoes), hreading]
      simp [hasNext, hgoes]

/-- The bindings `x in set S, y in set T`. -/
def bindingsST : List (Binding Unit) :=
  [{ patterns := [.name "x"], kind := .inSet, domain := .name "S" },
   { patterns := [.name "y"], kind := .inSet, domain := .name "T" }]

/-- The odometer of these bindings with `x` and `y` at the only elements of `{1}` and `{3}`. -/
def oneThree : Odometer Unit :=
  ⟨[⟨0, { patterns := [.name "x"], kind := .inSet, domain := .name "S" },
      ⟨.name "x", [.single "x" (.int 1)], []⟩⟩,
    ⟨1, { patterns := [.name "y"], kind := .inSet, domain := .name "T" },
      ⟨.name "y", [.single "y" (.int 3)], []⟩⟩],
    [.single "x" (.int 1), .single "y" (.int 3)], false⟩

/-- The same odometer with the wheel of `x` loaded with the only element of `{5}`. -/
def fiveLoaded : Odometer Unit :=
  { oneThree with
    wheels := [⟨0, { patterns := [.name "x"], kind := .inSet, domain := .name "S" },
      ⟨.name "x", [.single "x" (.int 5)], [.single "x" (.int 5)]⟩⟩] ++ oneThree.wheels.drop 1 }

/-- A context in which `S` is `{5}` and `T` has no value. -/
def fiveForS : Context :=
  .withFrame "global" (.ofList [("S", .set [.int 5])])

/-- It is what a start leaves that finds `5` in `S` and no value for `T`. -/
lemma start_oneThree :
    (oneThree.start false fiveForS).result {} (.running []) =
    (.ok (fiveLoaded, some (.binding "y in set T" (.unresolvedName "T"))), .running []) := rfl

/-- The odometer gets to `x = 1, y = 3` by a start with `{1}` for `S` and `{3}` for `T`. -/
lemma reached_oneThree : Reached bindingsST oneThree := by
  have hstart : ((ofBindings bindingsST).start false (.withFrame "global"
      (.ofList [("S", .set [.int 1]), ("T", .set [.int 3])]))).result {} (.running []) =
      (.ok (oneThree, none), .running []) := rfl
  exact .started .fresh hstart

/-- What such a start leaves, and when it goes unnoticed. -/
theorem failed_start_undisturbed_iff_oneThree :
    Reached bindingsST oneThree ∧
    (oneThree.start false fiveForS).result {} (.running []) =
      (.ok (fiveLoaded, some (.binding "y in set T" (.unresolvedName "T"))), .running []) ∧
    (∃ before b after values u loaded, bindingsST = before ++ b :: after ∧
      (Binding.resolveEach false fiveForS before).result {} (.running []) = (.ok values, u) ∧
      (b.draw false fiveForS).result {} u =
        (.error (.binding "y in set T" (.unresolvedName "T")), .running []) ∧
      loaded = loadedWheels false 0 before values ∧
      fiveLoaded = { oneThree with wheels := loaded ++ oneThree.wheels.drop loaded.length } ∧
      (oneThree.hasNext = true → [] ∉ faces fiveLoaded.wheels →
        fiveLoaded.Delivers (upcoming fiveLoaded.wheels oneThree.reading) ∧
        (loaded ≠ [] → ∃ stale, stale ≠ [] ∧ upcoming fiveLoaded.wheels oneThree.reading =
          stale ++ Match.product (faces fiveLoaded.wheels))) ∧
      (oneThree.hasNext = true → [] ∈ faces fiveLoaded.wheels →
        ∃ n, (fiveLoaded.after n).hasNext = true ∧
          (fiveLoaded.after n).next.1 = .error .exhausted)) ∧
    (Undisturbed oneThree fiveLoaded ↔ (oneThree.hasNext = true →
      [] ∉ faces oneThree.wheels ∧ [] ∉ faces fiveLoaded.wheels ∧
      upcoming fiveLoaded.wheels oneThree.reading = upcoming oneThree.wheels oneThree.reading)) :=
  ⟨reached_oneThree, start_oneThree, failed_start_undisturbed_iff reached_oneThree start_oneThree⟩

/-- **Not every failed start goes unnoticed.** After this one, `x = 5, y = 3` is delivered, a new
match with an old one, where the enumeration was to end with `x = 1, y = 3`. -/
theorem not_every_failed_start_undisturbed :
    ¬ ∀ (bs : List (Binding Unit)) (o o' : Odometer Unit) (lenient : Bool) (env : Context)
        (config : EngineConfig) (s t : Session Unit) (e : EvalError), Reached bs o →
      (o.start lenient env).result config s = (.ok (o', some e), t) → Undisturbed o o' := by
  intro hall
  have hundisturbed := hall _ _ _ _ _ _ _ _ _ reached_oneThree start_oneThree
  rcases hundisturbed.over_or_same with hover | hsame
  · exact Bool.noConfusion (hover : true = false)
  · have hmore : (fiveLoaded.after 1).next.1 =
        .ok (.concat [.single "x" (.int 5), .single "y" (.int 3)]) := rfl
    have hover : (oneThree.after 1).next.1 = .error .exhausted := rfl
    exact nomatch hmore.symm.trans ((hsame 1).1.trans hover)

end Odometer

end BoundedLogic
