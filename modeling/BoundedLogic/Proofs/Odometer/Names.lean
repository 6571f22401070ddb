import BoundedLogic.Proofs.Odometer.FailedStart
import BoundedLogic.Proofs.Pattern.Declarative
import BoundedLogic.Proofs.Quantifier.Scan
import BoundedLogic.Proofs.Scope.Names

set_option relaxedAutoImplicit false
set_option autoImplicit false

/-!
# The names of combinations

Which names a pattern binds can be read off the pattern, and every match of it binds just these, in
the order in which they occur. A combination has a match for each pattern. So all combinations of
some bindings bind the same names, and if one collapses then its frame has the names that the
bindings declare, each once. As a match is consistent in itself, what is inconsistent in a
combination is so between the matches of two patterns: a name that has two unequal values is shared
by wheels.

This holds in every state that an odometer can get into. After a start that failed, a reading may be
made of matches from before and after; but they are matches of the same patterns.

## Main definitions

* `BoundedLogic.Binding.declaredNames` — the names that bindings declare.
* `BoundedLogic.Odometer.patterns` — the patterns of wheels.
* `BoundedLogic.Odometer.ShowsFits` — all that an odometer holds and shows fits the patterns.

## Main results

* `BoundedLogic.Pattern.one_lt_count_of_clash` — a name with two unequal values is in two patterns.
* `BoundedLogic.Odometer.Reached.showsFits` — in every state all that is held and shown fits.
* `BoundedLogic.Odometer.combinations_bind_declared_names` — what combinations bind, and what
  predicates see.
-/

namespace BoundedLogic

variable {σ : Type}

/-! ### Matches of several patterns -/

namespace Pattern

variable {ps : List Pattern} {ms : List Match}

/-- Matches of several patterns bind the names of these, as often as they occur and in the same
order. -/
lemma map_fst_concat (h : List.Forall₂ Fits ps ms) :
    (Match.concat ms).pairs.map Prod.fst = ps.flatMap occurrences := by
  induction h with
  | nil => rfl
  | cons hm _ ih =>
    rw [Match.concat_cons, Match.pairs_append, List.map_append, hm.map_fst_pairs, ih,
      List.flatMap_cons]

/-- If they collapse the frame has the names of the patterns. -/
lemma names_of_toFrame?_concat (h : List.Forall₂ Fits ps ms) {f : Frame}
    (hf : (Match.concat ms).toFrame? = some f) : f.names = (ps.flatMap names).eraseDups := by
  rw [Match.names_of_toFrame? hf, map_fst_concat h]
  exact (eraseDups_flatMap_eraseDups occurrences ps).symm

/-- What they bind is among the names of the patterns. -/
lemma mem_flatMap_names (h : List.Forall₂ Fits ps ms) {n : String} {v : Value}
    (hv : (n, v) ∈ (Match.concat ms).pairs) : n ∈ ps.flatMap names := by
  have hn : n ∈ (Match.concat ms).pairs.map Prod.fst := List.mem_map_of_mem hv
  rw [map_fst_concat h, ← List.mem_eraseDups, ← eraseDups_flatMap_eraseDups] at hn
  exact List.mem_eraseDups.mp hn

/-- **A name with two unequal values** is in two of the patterns.

**Proof sketch.** Induction on the patterns. The two values cannot both come from the first match,
as what fits a pattern agrees; and if both come from the others, then so does the name. Otherwise
the name is in the first pattern and in another one. -/
theorem one_lt_count_of_clash (h : List.Forall₂ Fits ps ms) {n : String} {v w : Value}
    (hv : (n, v) ∈ (Match.concat ms).pairs) (hw : (n, w) ∈ (Match.concat ms).pairs)
    (hvw : (v == w) = false) : 1 < (ps.flatMap names).count n := by
  induction h with
  | nil => cases hv
  | @cons p m ps ms hm hms ih =>
    have hfirst : ∀ {x}, (n, x) ∈ m.pairs → 0 < p.names.count n := fun hx =>
      List.count_pos_iff.mpr (hm.mem_names hx)
    have hother : ∀ {x}, (n, x) ∈ (Match.concat ms).pairs → 0 < (ps.flatMap names).count n :=
      fun hx => List.count_pos_iff.mpr (mem_flatMap_names hms hx)
    rw [Match.concat_cons, Match.pairs_append, List.mem_append] at hv hw
    rw [List.flatMap_cons, List.count_append]
    rcases hv with hv | hv <;> rcases hw with hw | hw
    · have hagree := hm.agrees _ hv _ hw rfl
      exact absurd hagree (by simp [hvw])
    · have hp := hfirst hv
      have hps := hother hw
      omega
    · have hp := hfirst hw
      have hps := hother hv
      omega
    · have hps := ih hv hw
      omega

end Pattern

/-- The names that bindings declare in their patterns, each once, in the order in which they first
occur. -/
def Binding.declaredNames (bs : List (Binding σ)) : List String :=
  (bs.flatMap fun b => b.patterns.flatMap Pattern.names).eraseDups

namespace Odometer

/-! ### What fits -/

/-- The patterns of wheels. -/
def patterns (ws : List (Wheel σ)) : List Pattern :=
  ws.map fun w => w.cursor.pattern

/-- Wheels with the same fixed parts have the same patterns. -/
lemma patterns_congr {ws ws' : List (Wheel σ)} (h : fixedParts ws' = fixedParts ws) :
    patterns ws' = patterns ws := by
  have hparts := congrArg (List.map fun part => part.2.2) h
  rwa [fixedParts, fixedParts, List.map_map, List.map_map] at hparts

/-- The wheels of bindings have the patterns of the bindings. -/
lemma patterns_freshWheels (k : Nat) (bs : List (Binding σ)) :
    patterns (freshWheels k bs) = bs.flatMap Binding.patterns := by
  induction bs generalizing k with
  | nil => rfl
  | cons b bs ih =>
    rw [freshWheels_cons, patterns, List.map_append, ← patterns, ← patterns, ih, List.flatMap_cons]
    simp [patterns, freshWheel, Function.comp_def]

/-- In every state the wheels have the patterns of the bindings. -/
lemma Reached.patterns_eq {bs : List (Binding σ)} {o : Odometer σ} (h : Reached bs o) :
    patterns o.wheels = bs.flatMap Binding.patterns :=
  (patterns_congr h.fixedParts_eq).trans (patterns_freshWheels 0 bs)

/-- What is on each wheel fits its pattern. -/
def HoldFits (ws : List (Wheel σ)) : Prop :=
  ∀ w ∈ ws, ∀ m ∈ w.cursor.found, w.cursor.pattern.Fits m

/-- What is on each wheel fits its pattern, and so does what is shown for it unless the enumeration
is over. -/
structure ShowsFits (o : Odometer σ) : Prop where
  /-- The matches on the wheels. -/
  held : HoldFits o.wheels
  /-- The matches that are shown. -/
  shown : o.isOver = false → List.Forall₂ Pattern.Fits (patterns o.wheels) o.reading

/-- What is found in values fits. -/
lemma holdFits_loadedWheels (allOrders : Bool) (k : Nat) (bs : List (Binding σ))
    (values : List (List Value)) : HoldFits (loadedWheels allOrders k bs values) := by
  intro w hw m hm
  obtain ⟨b, -, hb⟩ := List.mem_flatMap.mp hw
  obtain ⟨p, -, rfl⟩ := List.mem_map.mp hb
  obtain ⟨v, -, hv⟩ := List.mem_flatMap.mp hm
  exact Pattern.fits_of_mem_matchings hv

/-- A step changes nothing that is on a wheel. -/
lemma holdFits_of_moves {ws ws' : List (Wheel σ)} (h : List.Forall₂ Moves ws ws')
    (hws : HoldFits ws) : HoldFits ws' := by
  induction h with
  | nil => exact hws
  | @cons w w' ws ws' hmove _ ih =>
    obtain ⟨hw, hrest⟩ := List.forall_mem_cons.mp hws
    refine List.forall_mem_cons.mpr ⟨?_, ih hrest⟩
    rw [hmove.same_matches.1, hmove.same_matches.2]
    exact hw

/-- The next match of a cursor is one of those to come. -/
lemma mem_rest_of_next {c c' : Cursor} {m : Match} (h : c.next = (.ok m, c')) : m ∈ c.rest := by
  cases hrest : c.rest with
  | nil => simp [Cursor.next, hrest] at h
  | cons n ns =>
    obtain ⟨rfl, -⟩ : n = m ∧ _ := by simpa [Cursor.next, hrest] using h
    exact List.mem_cons_self

/-- The first reading of rewound wheels fits, if it is complete. -/
lemma fits_firstReading {ws : List (Wheel σ)} (hws : HoldFits ws) (hrewound : ∀ w ∈ ws, Rewound w)
    (hover : (firstReading ws).2.2 = false) :
    List.Forall₂ Pattern.Fits (patterns ws) (firstReading ws).2.1 := by
  induction ws with
  | nil => exact .nil
  | cons w ws ih =>
    obtain ⟨hw, hrest⟩ := List.forall_mem_cons.mp hws
    obtain ⟨hwr, hrestr⟩ := List.forall_mem_cons.mp hrewound
    rw [firstReading] at hover ⊢
    rcases hn : w.cursor.next with ⟨e | m, c⟩
    · rw [hn] at hover
      cases hover
    · rw [hn] at hover
      have hm := mem_rest_of_next hn
      rw [hwr] at hm
      exact .cons (hw m hm) (ih hrest hrestr hover)

/-- A reading that fits is turned to one that fits, also by a turn that fails.

**Proof sketch.** Induction on the wheels. What a wheel is turned to is one of its matches. -/
lemma fits_turn {ws : List (Wheel σ)} {ms : List Match} (hws : HoldFits ws)
    (hlast : RestsAreLast ws) (h : List.Forall₂ Pattern.Fits (patterns ws) ms) :
    List.Forall₂ Pattern.Fits (patterns ws) (turn ws ms).2.2 := by
  induction ws generalizing ms with
  | nil =>
    obtain rfl := List.forall₂_nil_left_iff.mp h
    exact .nil
  | cons w ws ih =>
    obtain ⟨m, ms, hm, hms, rfl⟩ := List.forall₂_cons_left_iff.mp h
    obtain ⟨hw, hwrest⟩ := List.forall_mem_cons.mp hws
    obtain ⟨hwlast, hrestlast⟩ := List.forall_mem_cons.mp hlast
    have htail := ih hwrest hrestlast hms
    rw [turn]
    rcases hturn : turn ws ms with ⟨e | _ | _, ws', ms'⟩ <;> rw [hturn] at htail
    · exact .cons hm htail
    · exact .cons hm htail
    · dsimp only
      split
      · rcases hn : w.cursor.next with ⟨e | n, c⟩
        · exact .cons hm htail
        · exact .cons (hw n (hwlast.subset (mem_rest_of_next hn))) htail
      · rcases hn : w.cursor.reset.next with ⟨e | n, c⟩
        · exact .cons hm htail
        · exact .cons (hw n (mem_rest_of_next hn)) htail

/-- **In every state all that an odometer holds and shows fits**, be it from before a start that
failed or after it. -/
theorem Reached.showsFits {bs : List (Binding σ)} {o : Odometer σ} (h : Reached bs o) :
    o.ShowsFits := by
  induction h with
  | fresh =>
    refine ⟨fun w hw m hm => ?_, fun hover => Bool.noConfusion hover⟩
    obtain ⟨b, -, hb⟩ := List.mem_flatMap.mp hw
    obtain ⟨p, -, rfl⟩ := List.mem_map.mp hb
    cases hm
  | @started o o' lenient env config s t failure h hstart ih =>
    cases failure with
    | none =>
      obtain ⟨values, -, rfl⟩ := exists_values_of_start h.fixedParts_eq hstart
      have hloaded := holdFits_loadedWheels config.allPossibilities 0 bs values
      have hmoves := forall₂_moves_firstReading (loadedWheels config.allPossibilities 0 bs values)
      refine ⟨holdFits_of_moves hmoves hloaded, fun hover => ?_⟩
      have hpatterns := patterns_congr (fixedParts_of_moves hmoves)
      have hfirst := fits_firstReading hloaded (fun _ hw => rewound_of_mem_loadedWheels hw) hover
      rw [← hpatterns] at hfirst
      exact hfirst
    | some e =>
      have hpatterns : patterns o'.wheels = patterns o.wheels :=
        (Reached.started h hstart).patterns_eq.trans h.patterns_eq.symm
      obtain ⟨before, b, after, values, u, loaded, -, -, -, hloaded, ho'⟩ :=
        exists_loaded_of_start h.fixedParts_eq hstart
      refine ⟨?_, fun hover => ?_⟩
      · rw [ho']
        refine List.forall_mem_append.mpr ⟨?_, fun w hw => ih.held w (List.mem_of_mem_drop hw)⟩
        rw [hloaded]
        exact holdFits_loadedWheels _ 0 before values
      · rw [hpatterns, ho']
        exact ih.shown (by rw [← hover, ho'])
  | @turned o h ih =>
    rw [next]
    split
    case isTrue => exact ih
    case isFalse hover =>
      have hover : o.isOver = false := by simpa using hover
      have hmoves := (forall₂_moves_turn o.wheels o.reading).1
      have hheld := holdFits_of_moves hmoves ih.held
      have hshown := fits_turn ih.held h.inOrder.restsAreLast (ih.shown hover)
      rw [← patterns_congr (fixedParts_of_moves hmoves)] at hshown
      rcases hturn : turn o.wheels o.reading with ⟨e | isOver, ws, ms⟩ <;>
        rw [hturn] at hheld hshown <;> exact ⟨hheld, fun _ => hshown⟩

/-! ### Combinations -/

variable {bs : List (Binding σ)} {o : Odometer σ} {m : Match}

/-- A name is shared if it is among the names of the wheels more than once. -/
lemma mem_sharedNames_iff {n : String} :
    n ∈ o.sharedNames ↔ 1 < ((patterns o.wheels).flatMap Pattern.names).count n := by
  rw [sharedNames, List.mem_mergeSort, List.mem_eraseDups, List.mem_filter, decide_eq_true_iff,
    patterns, List.flatMap_map]
  exact and_iff_right_of_imp fun hcount => List.count_pos_iff.mp (Nat.zero_lt_of_lt hcount)

/-- A combination that is returned is put together from matches that fit the patterns. -/
lemma Reached.exists_fits_of_next (h : Reached bs o) (hm : o.next.1 = .ok m) :
    ∃ ms, List.Forall₂ Pattern.Fits (patterns o.wheels) ms ∧ Match.concat ms = m := by
  rw [next] at hm
  cases hover : o.isOver with
  | true =>
    rw [hover] at hm
    cases hm
  | false =>
    refine ⟨o.reading, h.showsFits.shown hover, ?_⟩
    rw [hover, if_neg Bool.false_ne_true] at hm
    rcases hturn : turn o.wheels o.reading with ⟨e | isOver, ws, ms⟩ <;> rw [hturn] at hm
    · cases hm
    · exact Except.ok.inj hm

/-- If it collapses its frame has the declared names. -/
lemma Reached.names_of_next (h : Reached bs o) (hm : o.next.1 = .ok m) {f : Frame}
    (hf : m.toFrame? = some f) : f.names = Binding.declaredNames bs := by
  obtain ⟨ms, hms, rfl⟩ := h.exists_fits_of_next hm
  rw [Pattern.names_of_toFrame?_concat hms hf, h.patterns_eq, List.flatMap_assoc,
    Binding.declaredNames]

/-- Otherwise a name that is shared has two unequal values. -/
lemma Reached.exists_clash_of_next (h : Reached bs o) (hm : o.next.1 = .ok m)
    (hf : m.toFrame? = none) :
    ∃ n ∈ o.sharedNames, ∃ v w, (n, v) ∈ m.pairs ∧ (n, w) ∈ m.pairs ∧ (v == w) = false := by
  obtain ⟨ms, hms, rfl⟩ := h.exists_fits_of_next hm
  have hagrees : ¬ (Match.concat ms).Agrees := by
    rw [← Match.isConsistent_iff, Match.isConsistent, hf]
    exact Bool.false_ne_true
  simp only [Match.Agrees, Named.Agree, not_forall, Bool.not_eq_true] at hagrees
  obtain ⟨⟨n, v⟩, hv, ⟨n', w⟩, hw, rfl, hvw⟩ := hagrees
  exact ⟨n, mem_sharedNames_iff.mpr (Pattern.one_lt_count_of_clash hms hv hw hvw), v, w, hv, hw, hvw⟩

/-- Further combinations can be asked for. -/
lemma Reached.after (h : Reached bs o) (n : Nat) : Reached bs (o.after n) := by
  induction n with
  | zero => exact h
  | succ n ih =>
    rw [after_succ]
    exact .turned ih

/-- The frames on which a quantification asks its predicate have the declared names. -/
lemma names_of_mem_frames {lenient : Bool} {env : Context} {config : EngineConfig}
    {s t : Session σ} {values : List (List Value)}
    (h : (Binding.resolveEach lenient env bs).result config s = (.ok values, t)) {f : Frame}
    (hf : f ∈ Binding.frames config.allPossibilities bs values) :
    f.names = Binding.declaredNames bs := by
  obtain ⟨m, hm, hmf⟩ := List.mem_filterMap.mp hf
  obtain ⟨n, hn⟩ := List.getElem?_of_mem hm
  obtain ⟨o, hstart, hdelivers⟩ := Reached.start_of_ok .fresh h
  have hnext := hdelivers.next_eq n
  rw [hn] at hnext
  exact (Reached.after (.started .fresh hstart) n).names_of_next hnext hmf

/-- **What combinations bind.** In every state that the odometer of some bindings can get into, a
combination that is returned

* has a frame with the names that the bindings declare, each once and in the order of their first
  occurrences, if it collapses;
* and otherwise gives two unequal values to a name that is shared by wheels.

So without shared names every combination is consistent. And a predicate sees the declared names
each time it is asked: whatever it would do elsewhere makes no difference to a quantification.

**Proof sketch.** All that is shown fits the patterns (`Reached.showsFits`). What fits binds the
names of the patterns, and two unequal values of a name come from the matches of two patterns
(`Pattern.one_lt_count_of_clash`). -/
theorem combinations_bind_declared_names (h : Reached bs o) :
    (∀ m, o.next.1 = .ok m →
      (∀ f, m.toFrame? = some f → f.names = Binding.declaredNames bs) ∧
      (m.toFrame? = none →
        ∃ n ∈ o.sharedNames, ∃ v w, (n, v) ∈ m.pairs ∧ (n, w) ∈ m.pairs ∧ (v == w) = false)) ∧
    (o.sharedNames = [] → ∀ m, o.next.1 = .ok m → m.isConsistent = true) ∧
    ∀ (q : Quantifier) (p elsewhere : Context → Eval σ Value) (env : Context),
      q.evaluate bs
        (fun c => if c.frame.names = Binding.declaredNames bs then p c else elsewhere c) env =
      q.evaluate bs p env := by
  refine ⟨fun m hm => ⟨fun f => h.names_of_next hm, h.exists_clash_of_next hm⟩,
    fun hshared m hm => ?_, fun q p elsewhere env => ?_⟩
  · rw [Match.isConsistent]
    cases hf : m.toFrame? with
    | some f => rfl
    | none =>
      obtain ⟨n, hn, -⟩ := h.exists_clash_of_next hm hf
      rw [hshared] at hn
      cases hn
  · refine Quantifier.evaluate_congr_of_alike fun config s t values hvalues f hf config' s' _ => ?_
    have hnames : (env.extend q.keyword f).frame.names = Binding.declaredNames bs :=
      names_of_mem_frames hvalues hf
    rw [Quantifier.onFrame, Quantifier.onFrame, if_pos hnames]

/-- The bindings `x in set {1, 2}, x, y in set {2, 3}`. -/
def bindingsXXY : List (Binding Unit) :=
  [.overIntegers ["x"] [1, 2], .overIntegers ["x", "y"] [2, 3]]

/-- The odometer of these bindings at its first combination. -/
def firstXXY : Odometer Unit :=
  atFirstReading (loadedWheels false 0 bindingsXXY [[.int 1, .int 2], [.int 2, .int 3]])

/-- Of the combinations of `x in set {1, 2}, x, y in set {2, 3}` the first one gives two values to a
name that is shared, and the fifth one has a frame for `x` and `y`. -/
theorem combinations_bind_declared_names_firstXXY :
    Reached bindingsXXY firstXXY ∧ Reached bindingsXXY (firstXXY.after 4) ∧
      (∃ m, firstXXY.next.1 = .ok m ∧
        ∃ n ∈ firstXXY.sharedNames, ∃ v w,
          (n, v) ∈ m.pairs ∧ (n, w) ∈ m.pairs ∧ (v == w) = false) ∧
      ∃ m f, (firstXXY.after 4).next.1 = .ok m ∧ m.toFrame? = some f ∧ f.names = ["x", "y"] := by
  have hstart : ((ofBindings bindingsXXY).start false .root).result {} (.running []) =
      (.ok (firstXXY, none), .running []) := rfl
  have hfirst : Reached bindingsXXY firstXXY := .started .fresh hstart
  have hfifth := hfirst.after 4
  have hclash := ((combinations_bind_declared_names hfirst).1 _ rfl).2 (by decide +kernel)
  have hframe : ∃ m, (firstXXY.after 4).next.1 = .ok m ∧ m.isConsistent = true :=
    ⟨_, rfl, by decide +kernel⟩
  obtain ⟨m, hm, hconsistent⟩ := hframe
  obtain ⟨f, hf⟩ := Option.isSome_iff_exists.mp hconsistent
  have hnames := ((combinations_bind_declared_names hfifth).1 m hm).1 f hf
  exact ⟨hfirst, hfifth, ⟨_, rfl, hclash⟩, m, f, hm, hf, hnames⟩

end Odometer

end BoundedLogic
