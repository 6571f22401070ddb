import BoundedLogic.Evaluation.Predicate
import BoundedLogic.Proofs.Quantifier.Scan

set_option relaxedAutoImplicit false
set_option autoImplicit false

/-!
# What universal quantifications record

A universal quantification asks its predicate on one consistent frame after another, each time with
no frame recorded. When all of them are satisfied nothing is recorded in the end. When one fails,
what its predicate recorded stays, and the frame is recorded after it. So the recorded frames are
those of one evaluation of the predicate, and the evaluations before it have no part in them.

## Main definitions

* `BoundedLogic.Satisfied` — a predicate that is true on several frames, one after another.
* `BoundedLogic.FirstFailure` — the first frame on which a predicate is false.
* `BoundedLogic.AgreeUnlessTrue` — two evaluations that differ at most in what they record when they
  are true.

## Main results

* `BoundedLogic.Quantifier.universal_counterexample` — what a universal quantification leaves
  recorded, and what that does not depend on.
-/

namespace BoundedLogic

variable {σ : Type} {config : EngineConfig}

/-! ### Runs of a predicate over frames -/

/-- The predicate is true on all frames, asked one after another from the first session to the
second, with the recorded frames forgotten after each. -/
inductive Satisfied (config : EngineConfig) (p : Frame → Eval σ Value) :
    List Frame → Session σ → Session σ → Prop
  | nil (s : Session σ) : Satisfied config p [] s s
  | cons {f : Frame} {fs : List Frame} {s t u : Session σ}
      (h : (p f).result config s = (.ok (.bool true), t)) (hs : Satisfied config p fs t.forget u) :
      Satisfied config p (f :: fs) s u

/-- The predicate is true on the frames before `f`, and false on `f`: it is asked there in the
session `u`, and leaves the session `v`. -/
structure FirstFailure (config : EngineConfig) (p : Frame → Eval σ Value) (fs : List Frame)
    (s : Session σ) (f : Frame) (u v : Session σ) : Prop where
  /-- The frames before are satisfied. -/
  satisfied : ∃ before after, fs = before ++ f :: after ∧ Satisfied config p before s u
  /-- The predicate is false on the frame. -/
  fails : (p f).result config u = (.ok (.bool false), v)

/-- From one session two evaluations end alike; only where both are true they may have recorded
different frames. -/
def AgreeUnlessTrue (config : EngineConfig) (x y : Eval σ Value) (s : Session σ) : Prop :=
  x.result config s = y.result config s ∨
    ∃ t u, x.result config s = (.ok (.bool true), t) ∧ y.result config s = (.ok (.bool true), u) ∧
      t.forget = u.forget

/-- A run over satisfied frames that starts with nothing recorded ends so. -/
lemma Satisfied.nothingRecorded {p : Frame → Eval σ Value} {fs : List Frame} {s t : Session σ}
    (h : Satisfied config p fs s t) (hs : s.NothingRecorded) : t.NothingRecorded := by
  induction h with
  | nil => exact hs
  | cons _ _ ih => exact ih (Session.nothingRecorded_forget _)

/-- A failure after a satisfied frame. -/
lemma FirstFailure.cons {p : Frame → Eval σ Value} {g f : Frame} {fs : List Frame}
    {s t u v : Session σ} (hg : (p g).result config s = (.ok (.bool true), t))
    (h : FirstFailure config p fs t.forget f u v) : FirstFailure config p (g :: fs) s f u v := by
  obtain ⟨before, after, rfl, hsat⟩ := h.satisfied
  exact ⟨⟨g :: before, after, rfl, .cons hg hsat⟩, h.fails⟩

/-- The predicate is asked on the failing frame with nothing recorded, if it is so on the first
one. -/
lemma FirstFailure.nothingRecorded {p : Frame → Eval σ Value} {fs : List Frame} {f : Frame}
    {s u v : Session σ} (h : FirstFailure config p fs s f u v) (hs : s.NothingRecorded) :
    u.NothingRecorded := by
  obtain ⟨before, after, -, hsat⟩ := h.satisfied
  exact hsat.nothingRecorded hs

namespace Quantifier

variable {env : Context} {p : Context → Eval σ Value} {s t : Session σ}

/-- After a true answer the recorded frames are forgotten. -/
lemma result_visitUniversal_true {f : Frame} (s : Session σ) :
    (visitUniversal true true f).result config s = (.ok (.yield true), s.forget) :=
  Eval.result_bind_of_ok (Eval.result_clearCounterexample config s)

/-- After a false answer the frame is recorded, and the scan ends. -/
lemma result_visitUniversal_false {f : Frame} (s : Session σ) :
    (visitUniversal true false f).result config s = (.ok (.done false), s.record f) :=
  Eval.result_bind_of_ok (Eval.result_recordFrame f config s)

/-- **The scan of a universal quantification**: either all frames are satisfied, or the first
failure is recorded.

**Proof sketch.** Induction on the combinations. One without a frame is passed over. For any other
one the predicate is asked: if it is true the frames it recorded are forgotten and the scan goes on,
if it is false the frame is recorded and the scan ends. -/
lemma scanList_visitUniversal_cases {ms : List Match} {b : Bool}
    (h : (universal.scanList env p visitUniversal ms true).result config s = (.ok b, t)) :
    b = true ∧ Satisfied config (universal.onFrame env p) (ms.filterMap Match.toFrame?) s t ∨
      b = false ∧ ∃ f u v, FirstFailure config (universal.onFrame env p)
        (ms.filterMap Match.toFrame?) s f u v ∧ t = v.record f := by
  induction ms generalizing s with
  | nil =>
    obtain ⟨rfl, rfl⟩ : true = b ∧ s = t := by simpa [result_scanList_nil] using h
    exact .inl ⟨rfl, .nil s⟩
  | cons m ms ih =>
    rcases result_scanList_cons_eq_ok h with ⟨hm, h⟩ | ⟨frame, holds, u, hm, hp, h⟩
    · rw [List.filterMap_cons_none hm]
      exact ih h
    · rw [List.filterMap_cons_some hm]
      cases holds with
      | true =>
        rw [Eval.result_bind_of_ok (result_visitUniversal_true u)] at h
        rcases ih h with ⟨hb, hsat⟩ | ⟨hb, f, v, w, hfail, ht⟩
        · exact .inl ⟨hb, .cons hp hsat⟩
        · exact .inr ⟨hb, f, v, w, hfail.cons hp, ht⟩
      | false =>
        rw [Eval.result_bind_of_ok (result_visitUniversal_false u)] at h
        obtain ⟨rfl, rfl⟩ : false = b ∧ u.record frame = t := by simpa using h
        exact .inr ⟨rfl, frame, s, u, ⟨⟨[], _, rfl, .nil s⟩, hp⟩, rfl⟩

/-- A universal quantification that succeeds: its domains are worked out, the recorded frames are
forgotten, and either all frames are satisfied, or the first failure is recorded. -/
lemma evaluate_universal_cases {bs : List (Binding σ)} {b : Bool}
    (h : (universal.evaluate bs p env).result config s = (.ok b, t)) :
    ∃ values s₀, (Binding.resolveEach config.allowUnresolved env bs).result config s =
        (.ok values, s₀) ∧
      (b = true ∧ Satisfied config (universal.onFrame env p)
          (Binding.frames config.allPossibilities bs values) s₀.forget t ∨
        b = false ∧ ∃ f u v, FirstFailure config (universal.onFrame env p)
          (Binding.frames config.allPossibilities bs values) s₀.forget f u v ∧ t = v.record f) := by
  rw [evaluate, Eval.result_bind_eq_ok_iff] at h
  obtain ⟨b', w, hscan, h⟩ := h
  obtain ⟨values, s₀, hbs, hscan⟩ := result_scan_eq_ok_iff.mp hscan
  refine ⟨values, s₀, hbs, ?_⟩
  rcases scanList_visitUniversal_cases hscan with ⟨rfl, hsat⟩ | ⟨rfl, hfail⟩
  · rw [if_pos rfl, Eval.result_bind_of_ok (Eval.result_clearCounterexample config w)] at h
    obtain ⟨rfl, rfl⟩ : true = b ∧ w.forget = t := by simpa using h
    -- the last clearing has nothing left to forget
    have hw := hsat.nothingRecorded s₀.nothingRecorded_forget
    rw [Session.nothingRecorded_iff.mp hw]
    exact .inl ⟨rfl, hsat⟩
  · obtain ⟨rfl, rfl⟩ : false = b ∧ w = t := by simpa using h
    exact .inr ⟨rfl, hfail⟩

/-- Nothing is recorded after a universal quantification that is true. -/
lemma nothingRecorded_of_evaluate_universal {bs : List (Binding σ)}
    (h : (universal.evaluate bs p env).result config s = (.ok true, t)) : t.NothingRecorded := by
  obtain ⟨values, s₀, -, ⟨-, hsat⟩ | ⟨hb, -⟩⟩ := evaluate_universal_cases h
  · exact hsat.nothingRecorded s₀.nothingRecorded_forget
  · cases hb

/-! ### Two runs -/

/-- **Two scans of universal quantifications** end alike, if from every session without a recorded
frame the evaluations of their predicates do, up to what they record when they are true.

**Proof sketch.** Induction on the combinations. Every evaluation of a predicate starts with nothing
recorded. If the two evaluations on a frame end alike, so do the two scans, or they go on from the
same session. If both are true, what they have recorded is forgotten, and the sessions from which
the scans go on are the same again. -/
lemma result_scanList_visitUniversal_congr {p' : Context → Eval σ Value} {ms : List Match}
    (hp : ∀ f ∈ ms.filterMap Match.toFrame?, ∀ u : Session σ, u.NothingRecorded →
      AgreeUnlessTrue config (universal.onFrame env p f) (universal.onFrame env p' f) u)
    (hs : s.NothingRecorded) :
    (universal.scanList env p visitUniversal ms true).result config s =
      (universal.scanList env p' visitUniversal ms true).result config s := by
  induction ms generalizing s with
  | nil => rfl
  | cons m ms ih =>
    cases hterm : s.interrupter.terminateRequested with
    | true => simp only [result_scanList_of_terminating hterm]
    | false =>
      cases hm : m.toFrame? with
      | none =>
        simp only [List.filterMap_cons, hm] at hp
        rw [result_scanList_of_none hterm hm, result_scanList_of_none hterm hm]
        exact ih hp hs
      | some frame =>
        simp only [List.filterMap_cons, hm] at hp
        have ih' := fun t : Session σ =>
          ih (fun f hf => hp f (List.mem_cons_of_mem _ hf)) t.nothingRecorded_forget
        rw [result_scanList_of_some hterm hm, result_scanList_of_some hterm hm]
        rcases hp frame List.mem_cons_self s hs with hsame | ⟨t, u, ht, hu, htu⟩
        · rw [Eval.result_bind, Eval.result_bind, ← result_ask_congr hsame]
          rcases (universal.ask env p frame).result config s with ⟨_ | _ | _, v⟩
          · rfl
          · rfl
          · exact ih' v
        · -- both are true: what they have recorded is forgotten, and that was all they differ in
          rw [Eval.result_bind_of_ok (result_ask_eq_ok_iff.mpr ht),
            Eval.result_bind_of_ok (result_ask_eq_ok_iff.mpr hu)]
          rw [Eval.result_bind_of_ok (result_visitUniversal_true t),
            Eval.result_bind_of_ok (result_visitUniversal_true u), htu]
          exact ih' u

/-- Two universal quantifications end alike, if their bindings have the same combinations, the
sessions after the domains were worked out differ in the recorded frames alone, and the evaluations
of their predicates end alike up to what they record when they are true. -/
lemma result_evaluate_universal_congr {bs bs' : List (Binding σ)} {p' : Context → Eval σ Value}
    {values values' : List (List Value)} {s s' s₀ s₀' : Session σ}
    (hbs : (Binding.resolveEach config.allowUnresolved env bs).result config s =
      (.ok values, s₀))
    (hbs' : (Binding.resolveEach config.allowUnresolved env bs').result config s' =
      (.ok values', s₀'))
    (hcombinations : Binding.combinations config.allPossibilities bs values =
      Binding.combinations config.allPossibilities bs' values')
    (hsession : s₀.forget = s₀'.forget)
    (hp : ∀ f ∈ Binding.frames config.allPossibilities bs values, ∀ u : Session σ,
      u.NothingRecorded →
        AgreeUnlessTrue config (universal.onFrame env p f) (universal.onFrame env p' f) u) :
    (universal.evaluate bs p env).result config s =
      (universal.evaluate bs' p' env).result config s' := by
  have hscan := result_scanList_visitUniversal_congr hp s₀.nothingRecorded_forget
  rw [evaluate, evaluate, Eval.result_bind, Eval.result_bind, result_scan_of_ok hbs,
    result_scan_of_ok hbs', ← hcombinations, ← hsession, if_pos rfl, if_pos rfl, hscan]

/-- **What a universal quantification leaves recorded.**
* If it is true, nothing.
* If it is false, then on some consistent frame the predicate is false, and true on all frames
  before it. On that frame the predicate is asked with nothing recorded, and what is recorded in the
  end is what the predicate left there, and the frame after it.
* Nothing else has a part in it: the quantification ends alike from any other session and with any
  other bindings, if these have the same combinations and the sessions after their domains were
  worked out differ in the recorded frames alone; and with any other predicate that ends alike but
  for what it records where it is true. -/
theorem universal_counterexample (bs : List (Binding σ)) (p : Context → Eval σ Value)
    (env : Context) (config : EngineConfig) (s : Session σ) :
    (∀ t, (universal.evaluate bs p env).result config s = (.ok true, t) → t.NothingRecorded) ∧
    (∀ t, (universal.evaluate bs p env).result config s = (.ok false, t) →
      ∃ values s₀ f u v, (Binding.resolveEach config.allowUnresolved env bs).result config s =
          (.ok values, s₀) ∧
        FirstFailure config (universal.onFrame env p)
          (Binding.frames config.allPossibilities bs values) s₀.forget f u v ∧
        u.NothingRecorded ∧ t.counterexample = v.counterexample.map fun c => c.push f) ∧
    ∀ (bs' : List (Binding σ)) (p' : Context → Eval σ Value) (s' : Session σ) values values' s₀ s₀',
      (Binding.resolveEach config.allowUnresolved env bs).result config s = (.ok values, s₀) →
      (Binding.resolveEach config.allowUnresolved env bs').result config s' = (.ok values', s₀') →
      Binding.combinations config.allPossibilities bs values =
        Binding.combinations config.allPossibilities bs' values' →
      s₀.forget = s₀'.forget →
      (∀ f ∈ Binding.frames config.allPossibilities bs values, ∀ u : Session σ,
        u.NothingRecorded →
          AgreeUnlessTrue config (universal.onFrame env p f) (universal.onFrame env p' f) u) →
      (universal.evaluate bs p env).result config s =
        (universal.evaluate bs' p' env).result config s' := by
  refine ⟨fun t h => nothingRecorded_of_evaluate_universal h, fun t h => ?_, ?_⟩
  · obtain ⟨values, s₀, hbs, ⟨hb, -⟩ | ⟨-, f, u, v, hfail, rfl⟩⟩ := evaluate_universal_cases h
    · cases hb
    · have hempty := hfail.nothingRecorded s₀.nothingRecorded_forget
      exact ⟨values, s₀, f, u, v, hbs, hfail, hempty, rfl⟩
  · intro bs' p' s' values values' s₀ s₀' hbs hbs' hcombinations hsession hp
    exact result_evaluate_universal_congr hbs hbs' hcombinations hsession hp

/-- The predicate `forall y in set {5} & false`. -/
def neverY : Predicate Unit :=
  .quantified .universal [.overIntegers ["y"] [5]] (.host fun _ => pure (.bool false))

/-- In `forall x in set {1} & forall y in set {5} & false` a frame recorded before goes, and the
frames of `y` and of `x` are recorded. -/
theorem universal_counterexample_neverY :
    (∃ values s₀ f u v, (Binding.resolveEach false .root [.overIntegers ["x"] [1]]).result {}
        (.running [⟨[("old", .int 0)]⟩]) = (.ok values, s₀) ∧
      FirstFailure {} (universal.onFrame .root neverY.evaluate)
        (Binding.frames (σ := Unit) false [.overIntegers ["x"] [1]] values) s₀.forget f u v ∧
      u.NothingRecorded ∧
      some ⟨[⟨[("y", .int 5)]⟩, ⟨[("x", .int 1)]⟩]⟩ = v.counterexample.map fun c => c.push f) ∧
    (universal.evaluate [.overIntegers ["x"] [1]] neverY.evaluate .root).result {}
        (.running [⟨[("old", .int 0)]⟩]) =
      (universal.evaluate [.overIntegers ["x"] [1]] neverY.evaluate .root).result {}
        (.running []) := by
  have hlaw := universal_counterexample [.overIntegers ["x"] [1]] neverY.evaluate .root {}
    (.running [⟨[("old", .int 0)]⟩])
  constructor
  · exact hlaw.2.1 (.running [⟨[("y", .int 5)]⟩, ⟨[("x", .int 1)]⟩]) rfl
  · exact hlaw.2.2 _ _ (.running []) [[.int 1]] [[.int 1]] (.running [⟨[("old", .int 0)]⟩])
      (.running []) rfl rfl rfl rfl fun _ _ _ _ => .inl rfl

end Quantifier

end BoundedLogic
