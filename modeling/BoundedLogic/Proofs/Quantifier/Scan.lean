import BoundedLogic.Evaluation.Quantification
import BoundedLogic.Proofs.Odometer.Start

set_option relaxedAutoImplicit false
set_option autoImplicit false

/-!
# Scans over lists of combinations

A scan draws its combinations from an odometer. As the odometer delivers the product of its wheels,
the same scan can be written over the list of the combinations, where no odometer and no bound on
the number of steps is left. All that is proved about quantifications starts from that form.

## Main definitions

* `BoundedLogic.Quantifier.ask` — the answer of the predicate on one frame.
* `BoundedLogic.Quantifier.onFrame` — the predicate of a quantification, as a predicate on frames.
* `BoundedLogic.Quantifier.scanList` — the predicate on one combination of a list after another.
* `BoundedLogic.Quantifier.AlikeOn` — predicates that evaluate alike on a frame.

## Main results

* `BoundedLogic.Quantifier.scanFrom_eq_scanList` — a scan from a valid odometer is a scan over the
  combinations it has to deliver.
* `BoundedLogic.Quantifier.result_scan_of_ok`, `BoundedLogic.Quantifier.result_scan_of_error`,
  `BoundedLogic.Quantifier.scan_eq` — a scan is the working out of its bindings, then a scan over
  their combinations.
* `BoundedLogic.Quantifier.evaluate_congr_of_alike` — predicates that are alike on the frames of the
  bindings can stand for each other.
-/

namespace BoundedLogic

namespace Quantifier

variable {σ β : Type} {q : Quantifier} {env : Context} {p : Context → Eval σ Value}
  {visit : β → Bool → Frame → Eval σ (ForInStep β)} {config : EngineConfig} {s t : Session σ}

/-! ### Scans over lists -/

/-- The answer of a predicate on the frame of a combination. Anything but a Boolean is an error. -/
def ask (q : Quantifier) (env : Context) (p : Context → Eval σ Value) (frame : Frame) :
    Eval σ Bool := do
  let answer ← p (env.extend q.keyword frame)
  match answer.asBool? with
  | none => throw (.notBoolean answer.kind.name)
  | some holds => pure holds

/-- The predicate of a quantification, as a predicate on frames. -/
def onFrame (q : Quantifier) (env : Context) (p : Context → Eval σ Value) (f : Frame) :
    Eval σ Value :=
  p (env.extend q.keyword f)

/-- Ask the predicate on the combinations of a list, in order, and pass each answer with its frame
to `visit`, until that is done. Combinations without a frame are passed over. -/
def scanList (q : Quantifier) (env : Context) (p : Context → Eval σ Value)
    (visit : β → Bool → Frame → Eval σ (ForInStep β)) : List Match → β → Eval σ β
  | [], acc => pure acc
  | m :: ms, acc => do
    if ← Eval.terminateRequested then
      throw .cancelled
    else
      match m.toFrame? with
      | none => scanList q env p visit ms acc
      | some frame => do
        let holds ← q.ask env p frame
        match ← visit acc holds frame with
        | .done acc => pure acc
        | .yield acc => scanList q env p visit ms acc

/-- **A scan from an odometer** is a scan over the combinations the odometer has to deliver, when as
many steps are granted as there are combinations.

**Proof sketch.** Induction on the granted steps. An odometer that is over has nothing to deliver.
Otherwise its next combination is the first of the list and never an error (`Odometer.next_spec`),
and the odometer after it delivers the others. -/
theorem scanFrom_eq_scanList (fuel : Nat) (o : Odometer σ) (hv : o.IsValid)
    (hfuel : o.remaining.length ≤ fuel) (acc : β) :
    q.scanFrom env p visit fuel o acc = q.scanList env p visit o.remaining acc := by
  induction fuel generalizing o acc with
  | zero =>
    have hnil : o.remaining = [] := List.length_eq_zero_iff.mp (Nat.le_zero.mp hfuel)
    rw [hnil, scanFrom, scanList]
  | succ fuel ih =>
    cases ho : o.isOver with
    | true => simp [scanFrom, ho, Odometer.remaining_of_isOver ho, scanList]
    | false =>
      obtain ⟨m, o', hnext, hv', hremaining⟩ := Odometer.next_spec hv ho
      have hfuel' : o'.remaining.length ≤ fuel := by
        rw [hremaining, List.length_cons] at hfuel
        omega
      have ih' := ih o' hv' hfuel'
      rw [hremaining, scanFrom, scanList]
      simp only [ho, Bool.false_eq_true, if_false, hnext, Eval.ofExcept, pure_bind]
      refine bind_congr fun terminate => ?_
      cases terminate with
      | true => simp
      | false =>
        cases m.toFrame? with
        | none => simp [ih']
        | some frame =>
          simp only [ask, ih', bind_assoc, Bool.false_eq_true, if_false]
          refine bind_congr fun answer => ?_
          cases answer.asBool? with
          | none => simp
          | some holds =>
            refine Eq.trans ?_ (pure_bind holds _).symm
            exact bind_congr fun step => by cases step <;> rfl

/-! ### One combination -/

/-- Asking succeeds exactly where the predicate evaluates to a Boolean. -/
lemma result_ask_eq_ok_iff {q : Quantifier} {f : Frame} {holds : Bool} :
    (q.ask env p f).result config s = (.ok holds, t) ↔
      (q.onFrame env p f).result config s = (.ok (.bool holds), t) := by
  rw [ask, Eval.result_bind_eq_ok_iff]
  constructor
  · rintro ⟨v, u, hv, h⟩
    cases v <;> simp [Value.asBool?] at h
    obtain ⟨rfl, rfl⟩ := h
    exact hv
  · intro h
    exact ⟨.bool holds, t, h, rfl⟩

/-- Asking one predicate or the other makes no difference where their evaluations end alike. -/
lemma result_ask_congr {q : Quantifier} {p' : Context → Eval σ Value} {f : Frame}
    (h : (q.onFrame env p f).result config s = (q.onFrame env p' f).result config s) :
    (q.ask env p f).result config s = (q.ask env p' f).result config s := by
  simp only [onFrame] at h
  simp only [ask, Eval.result_bind, h]

/-- Without combinations a scan returns what it was given. -/
lemma result_scanList_nil (acc : β) :
    (q.scanList env p visit [] acc).result config s = (.ok acc, s) := rfl

/-- A terminate ends a scan before its next combination. -/
lemma result_scanList_of_terminating (hs : s.interrupter.terminateRequested = true) (m : Match)
    (ms : List Match) (acc : β) :
    (q.scanList env p visit (m :: ms) acc).result config s = (.error .cancelled, s) := by
  rw [scanList, Eval.result_bind_of_ok (Eval.result_terminateRequested ..), if_pos hs]
  rfl

/-- A combination that gives a name two unequal values is passed over. -/
lemma result_scanList_of_none (hs : s.interrupter.terminateRequested = false) {m : Match}
    (hm : m.toFrame? = none) (ms : List Match) (acc : β) :
    (q.scanList env p visit (m :: ms) acc).result config s =
      (q.scanList env p visit ms acc).result config s := by
  rw [scanList, Eval.result_bind_of_ok (Eval.result_terminateRequested ..)]
  simp [hs, hm]

/-- Of any other combination the predicate is asked, and the visitor decides how to go on. -/
lemma result_scanList_of_some (hs : s.interrupter.terminateRequested = false) {m : Match}
    {frame : Frame} (hm : m.toFrame? = some frame) (ms : List Match) (acc : β) :
    (q.scanList env p visit (m :: ms) acc).result config s =
      (do
        let holds ← q.ask env p frame
        match ← visit acc holds frame with
        | .done acc => pure acc
        | .yield acc => q.scanList env p visit ms acc).result config s := by
  rw [scanList, Eval.result_bind_of_ok (Eval.result_terminateRequested ..)]
  simp [hs, hm]

/-- The first step of a scan that succeeds: the combination is passed over, or the predicate is a
Boolean on its frame, and the visitor and what it goes on with succeed. -/
lemma result_scanList_cons_eq_ok {m : Match} {ms : List Match} {acc b : β}
    (h : (q.scanList env p visit (m :: ms) acc).result config s = (.ok b, t)) :
    (m.toFrame? = none ∧ (q.scanList env p visit ms acc).result config s = (.ok b, t)) ∨
      ∃ frame holds u, m.toFrame? = some frame ∧
        (q.onFrame env p frame).result config s = (.ok (.bool holds), u) ∧
        (do
          match ← visit acc holds frame with
          | .done acc => pure acc
          | .yield acc => q.scanList env p visit ms acc).result config u = (.ok b, t) := by
  cases hterm : s.interrupter.terminateRequested with
  | true => simp [result_scanList_of_terminating hterm] at h
  | false =>
    cases hm : m.toFrame? with
    | none =>
      rw [result_scanList_of_none hterm hm] at h
      exact .inl ⟨rfl, h⟩
    | some frame =>
      rw [result_scanList_of_some hterm hm, Eval.result_bind_eq_ok_iff] at h
      obtain ⟨holds, u, hask, h⟩ := h
      exact .inr ⟨frame, holds, u, rfl, result_ask_eq_ok_iff.mp hask, h⟩

/-- The predicates evaluate alike on a frame, unless a terminate has been sent. -/
def AlikeOn (q : Quantifier) (env : Context) (p p' : Context → Eval σ Value) (f : Frame) : Prop :=
  ∀ config (s : Session σ), s.interrupter.terminateRequested = false →
    (q.onFrame env p f).result config s = (q.onFrame env p' f).result config s

/-- **Predicates that are alike** on the frames of all combinations can stand for each other in a
scan.

**Proof sketch.** Induction on the combinations. Under a terminate the predicate is not asked. -/
lemma scanList_congr {p' : Context → Eval σ Value} {ms : List Match}
    (h : ∀ f ∈ ms.filterMap Match.toFrame?, AlikeOn q env p p' f) (acc : β) :
    q.scanList env p visit ms acc = q.scanList env p' visit ms acc := by
  induction ms generalizing acc with
  | nil => rfl
  | cons m ms ih =>
    refine Eval.ext fun config s => ?_
    cases hgo : s.interrupter.terminateRequested with
    | true => rw [result_scanList_of_terminating hgo, result_scanList_of_terminating hgo]
    | false =>
      cases hm : m.toFrame? with
      | none =>
        rw [List.filterMap_cons_none hm] at h
        rw [result_scanList_of_none hgo hm, result_scanList_of_none hgo hm, ih h]
      | some f =>
        rw [List.filterMap_cons_some hm] at h
        obtain ⟨hf, hms⟩ := List.forall_mem_cons.mp h
        rw [result_scanList_of_some hgo hm, result_scanList_of_some hgo hm]
        simp only [ih hms, Eval.result_bind, result_ask_congr (hf config s hgo)]

/-! ### From the bindings on -/

/-- **A scan**, where every domain can be worked out: the working out of the domains, then, with the
recorded frames forgotten if asked to, a scan over the combinations of the bindings. -/
theorem result_scan_of_ok {bs : List (Binding σ)} {values : List (List Value)}
    (h : (Binding.resolveEach config.allowUnresolved env bs).result config s = (.ok values, t))
    (startsClear : Bool) (acc : β) :
    (q.scan bs env p startsClear visit acc).result config s =
      (q.scanList env p visit (Binding.combinations config.allPossibilities bs values) acc).result
        config (if startsClear then t.forget else t) := by
  have hstart := Odometer.start_of_ok (o := .ofBindings bs) rfl h
  obtain ⟨-, hvalid, hremaining, hcount⟩ :=
    Odometer.atFirstReading_loadedWheels config.allPossibilities bs values
  generalize Odometer.atFirstReading (Odometer.loadedWheels config.allPossibilities 0 bs values) = o
    at hstart hvalid hremaining hcount
  have hscan : q.scanFrom env p visit o.combinations o acc = q.scanList env p visit
      (Binding.combinations config.allPossibilities bs values) acc := by
    rw [← hremaining]
    exact scanFrom_eq_scanList _ o hvalid (Nat.le_of_eq (by rw [hremaining, hcount])) acc
  rw [scan, Eval.result_bind_of_ok (Eval.result_read ..), Eval.result_bind_of_ok hstart]
  cases startsClear with
  | false => simp [hscan]
  | true =>
    simp only [if_true, hscan]
    rw [Eval.result_bind_of_ok (Eval.result_clearCounterexample ..)]

/-- Where some domain cannot be worked out the scan fails, before anything is asked. -/
theorem result_scan_of_error {bs : List (Binding σ)} {e : EvalError}
    (h : (Binding.resolveEach config.allowUnresolved env bs).result config s = (.error e, t))
    (startsClear : Bool) (acc : β) :
    (q.scan bs env p startsClear visit acc).result config s = (.error e, t) := by
  obtain ⟨before, b, after, values, u, rfl, hbefore, hfail⟩ :=
    Binding.exists_of_resolveEach_eq_error h
  have hstart := Odometer.start_of_error (o := .ofBindings (before ++ b :: after)) rfl hbefore
    hfail rfl
  rw [scan, Eval.result_bind_of_ok (Eval.result_read ..), Eval.result_bind_of_ok hstart]
  rfl

/-- A scan as one evaluation, with no odometer in it. -/
lemma scan_eq (q : Quantifier) (bs : List (Binding σ)) (env : Context) (p : Context → Eval σ Value)
    (startsClear : Bool) (visit : β → Bool → Frame → Eval σ (ForInStep β)) (acc : β) :
    q.scan bs env p startsClear visit acc = (do
      let config ← read
      let values ← Binding.resolveEach config.allowUnresolved env bs
      (if startsClear then Eval.clearCounterexample else pure () : Eval σ Unit)
      q.scanList env p visit (Binding.combinations config.allPossibilities bs values) acc) := by
  refine Eval.ext fun config s => ?_
  rw [Eval.result_bind_of_ok (Eval.result_read ..)]
  rcases h : (Binding.resolveEach config.allowUnresolved env bs).result config s with
    ⟨e | values, t⟩
  · rw [result_scan_of_error h, Eval.result_bind_of_error h]
  · rw [result_scan_of_ok h, Eval.result_bind_of_ok h]
    cases startsClear with
    | false => rfl
    | true => rw [if_pos rfl, if_pos rfl, Eval.result_bind_of_ok (Eval.result_clearCounterexample ..)]

/-- A scan succeeds when its domains can be worked out and the scan over their combinations
succeeds. -/
lemma result_scan_eq_ok_iff {bs : List (Binding σ)} {startsClear : Bool} {acc b : β} :
    (q.scan bs env p startsClear visit acc).result config s = (.ok b, t) ↔
      ∃ values u, (Binding.resolveEach config.allowUnresolved env bs).result config s =
          (.ok values, u) ∧
        (q.scanList env p visit (Binding.combinations config.allPossibilities bs values) acc).result
          config (if startsClear then u.forget else u) = (.ok b, t) := by
  rcases h : (Binding.resolveEach config.allowUnresolved env bs).result config s with
    ⟨e | values, u⟩
  · simp [result_scan_of_error h]
  · rw [result_scan_of_ok h]
    constructor
    · intro hscan
      exact ⟨values, u, rfl, hscan⟩
    · rintro ⟨values', u', h', hscan⟩
      cases h'
      exact hscan

/-- Predicates that are alike on the frames of the bindings can stand for each other in a
quantification. -/
lemma evaluate_congr_of_alike {bs : List (Binding σ)} {p' : Context → Eval σ Value}
    (h : ∀ config (s t : Session σ) values,
      (Binding.resolveEach config.allowUnresolved env bs).result config s = (.ok values, t) →
        ∀ f ∈ Binding.frames config.allPossibilities bs values, AlikeOn q env p p' f) :
    q.evaluate bs p env = q.evaluate bs p' env := by
  have hscan : ∀ {β : Type} (visit : β → Bool → Frame → Eval σ (ForInStep β)) startsClear acc,
      q.scan bs env p startsClear visit acc = q.scan bs env p' startsClear visit acc := by
    intro β visit startsClear acc
    refine Eval.ext fun config s => ?_
    rcases hvalues : (Binding.resolveEach config.allowUnresolved env bs).result config s with
      ⟨e | values, t⟩
    · rw [result_scan_of_error hvalues, result_scan_of_error hvalues]
    · rw [result_scan_of_ok hvalues, result_scan_of_ok hvalues,
        scanList_congr (h config s t values hvalues)]
  cases q <;> simp only [evaluate, hscan]

end Quantifier

end BoundedLogic
