import BoundedLogic.Proofs.Quantifier.Scan
import Mathlib.Data.List.Induction

set_option relaxedAutoImplicit false
set_option autoImplicit false

/-!
# What quantifications answer

A quantification over a predicate whose value depends on its context alone is decided by the values
of the predicate on the consistent frames, in their order. Which list of values decides which answer
is said here without scanning: a universal quantification by the first value that is not true, an
existential one by the first that is not false, and a unique one by the second that is true.

## Main definitions

* `BoundedLogic.Eval.Determined` — an evaluation in a context whose outcome is a function of the
  context, as long as the interrupter runs.
* `BoundedLogic.Quantifier.Decides` — which answer a list of outcomes decides.

## Main results

* `BoundedLogic.Quantifier.evaluate_eq_iff_decides` — a quantification gives the answer that the
  outcomes of its predicate on the consistent frames decide.
-/

namespace BoundedLogic

namespace Eval

variable {σ : Type}

/-- While the interrupter runs, the outcome of a predicate is a function of the context, and the
interrupter is left running. -/
structure Determined (config : EngineConfig) (p : Context → Eval σ Value)
    (value : Context → Except EvalError Value) : Prop where
  /-- The outcome is the one given for the context. -/
  outcome : ∀ env s, s.interrupter.level = .running → ((p env).result config s).1 = value env
  /-- Nothing is sent to the interrupter that would change its level. -/
  running : ∀ env s, s.interrupter.level = .running →
    ((p env).result config s).2.interrupter.level = .running

end Eval

namespace Quantifier

variable {σ β : Type}

/-! ### Which outcomes decide which answer -/

/-- The outcome of asking a predicate that has a given outcome itself: it must be a Boolean. -/
def askedOutcome : Except EvalError Value → Except EvalError Bool
  | .error e => .error e
  | .ok v =>
    match v.asBool? with
    | some holds => .ok holds
    | none => .error (.notBoolean v.kind.name)

/-- The outcomes of asking a predicate on several frames. -/
def outcomes (q : Quantifier) (env : Context) (value : Context → Except EvalError Value)
    (frames : List Frame) : List (Except EvalError Bool) :=
  frames.map fun f => askedOutcome (value (env.extend q.keyword f))

/-- An outcome comes first in a list, after none but the Boolean `go`. -/
def ComesAfter (go : Bool) (as : List (Except EvalError Bool)) (a : Except EvalError Bool) : Prop :=
  ∃ before after, as = before ++ a :: after ∧ ∀ b ∈ before, b = .ok go

/-- Is the outcome a true Boolean? -/
def isTrue : Except EvalError Bool → Bool
  | .ok holds => holds
  | .error _ => false

/-- The outcomes are all Booleans, and `n` of them are true. -/
def HasTrue (as : List (Except EvalError Bool)) (n : Nat) : Prop :=
  (∀ a ∈ as, a.isOk) ∧ as.countP isTrue = n

/-- The answer that a list of outcomes decides.
* A universal quantification is true if all of them are true; otherwise the first that is not true
  is the answer, be it false or an error.
* An existential one is false if all of them are false; otherwise the first that is not false is the
  answer.
* A unique one is false as soon as a second one is true, and fails with an error that comes before
  that; if all of them are Booleans, it is true if exactly one is true, and false if none is. -/
def Decides : Quantifier → List (Except EvalError Bool) → Except EvalError Bool → Prop
  | .universal, as, .ok true => ∀ a ∈ as, a = .ok true
  | .universal, as, r => ComesAfter true as r
  | .existential, as, .ok false => ∀ a ∈ as, a = .ok false
  | .existential, as, r => ComesAfter false as r
  | .unique, as, .ok true => HasTrue as 1
  | .unique, as, .ok false =>
    HasTrue as 0 ∨ ∃ before after, as = before ++ .ok true :: after ∧ HasTrue before 1
  | .unique, as, .error e =>
    ∃ before after n, as = before ++ .error e :: after ∧ HasTrue before n ∧ n ≤ 1

/-! ### Settling a list of outcomes -/

/-- The outcomes taken up one after another, until the step is done or one is an error. -/
def settle (step : β → Bool → ForInStep β) : List (Except EvalError Bool) → β → Except EvalError β
  | [], acc => .ok acc
  | .error e :: _, _ => .error e
  | .ok holds :: as, acc =>
    match step acc holds with
    | .done acc => .ok acc
    | .yield acc => settle step as acc

/-- On to the next outcome while they are `go`. -/
def untilStep (go acc holds : Bool) : ForInStep Bool :=
  if holds = go then .yield acc else .done (!go)

/-- Count the outcomes that are true, until there are two. -/
def uniqueStep (n : Nat) (holds : Bool) : ForInStep Nat :=
  let n := if holds then n + 1 else n
  if 1 < n then .done n else .yield n

/-- The outcome that comes after none but `go`: it is the first one, or comes so in the rest after a
first one that is `go`. -/
lemma comesAfter_cons_iff {go : Bool} {a r : Except EvalError Bool}
    {as : List (Except EvalError Bool)} :
    ComesAfter go (a :: as) r ↔ a = r ∨ (a = .ok go ∧ ComesAfter go as r) := by
  constructor
  · rintro ⟨before, after, h, hgo⟩
    cases before with
    | nil =>
      simp only [List.nil_append, List.cons.injEq] at h
      exact .inl h.1
    | cons b before =>
      simp only [List.cons_append, List.cons.injEq] at h
      obtain ⟨rfl, rfl⟩ := h
      exact .inr ⟨hgo a (by simp), before, after, rfl, fun b hb => hgo b (by simp [hb])⟩
  · rintro (rfl | ⟨rfl, before, after, rfl, hgo⟩)
    · exact ⟨[], as, rfl, by simp⟩
    · exact ⟨.ok go :: before, after, rfl, by simpa using hgo⟩

/-- Outcomes that are all `go` settle for `go`, and no others do.

**Proof sketch.** Induction on the outcomes: one that is `go` goes on, any other one is the
answer. -/
lemma settle_until_eq_go_iff (go : Bool) (as : List (Except EvalError Bool)) :
    settle (untilStep go) as go = .ok go ↔ ∀ a ∈ as, a = .ok go := by
  induction as with
  | nil => simp [settle]
  | cons a as ih =>
    rcases a with e | holds
    · simp [settle]
    · by_cases h : holds = go
      · simp [settle, untilStep, h, ih]
      · simp [settle, untilStep, h]

/-- Otherwise the first outcome that is not `go` is the answer. -/
lemma settle_until_eq_iff (go : Bool) (as : List (Except EvalError Bool))
    {r : Except EvalError Bool} (hr : r ≠ .ok go) :
    settle (untilStep go) as go = r ↔ ComesAfter go as r := by
  induction as with
  | nil => simp [settle, ComesAfter, hr.symm]
  | cons a as ih =>
    rw [comesAfter_cons_iff]
    rcases a with e | holds
    · simp [settle]
    · by_cases h : holds = go
      · simp [settle, untilStep, h, ih, hr.symm]
      · have hnot : (!go) = holds := by cases go <;> cases holds <;> simp_all
        simp [settle, untilStep, h, hnot]

/-! ### Counting true outcomes -/

@[simp] lemma hasTrue_nil_iff {n : Nat} : HasTrue [] n ↔ n = 0 := by
  simp [HasTrue, @eq_comm _ n]

/-- A true outcome in front counts. -/
@[simp] lemma hasTrue_cons_true_iff {as : List (Except EvalError Bool)} {n : Nat} :
    HasTrue (.ok true :: as) n ↔ ∃ m, HasTrue as m ∧ n = m + 1 := by
  simp [HasTrue, isTrue, Except.isOk, Except.toBool, List.countP_cons, @eq_comm _ n]

/-- A false outcome in front does not. -/
@[simp] lemma hasTrue_cons_false_iff {as : List (Except EvalError Bool)} {n : Nat} :
    HasTrue (.ok false :: as) n ↔ HasTrue as n := by
  simp [HasTrue, isTrue, Except.isOk, Except.toBool]

/-- An error is no Boolean. -/
@[simp] lemma not_hasTrue_cons_error {as : List (Except EvalError Bool)} {e : EvalError} {n : Nat} :
    ¬ HasTrue (.error e :: as) n := by
  simp [HasTrue, Except.isOk, Except.toBool]

/-- The true outcomes of two lists add up. -/
lemma HasTrue.append {as bs : List (Except EvalError Bool)} {m n : Nat} (ha : HasTrue as m)
    (hb : HasTrue bs n) : HasTrue (as ++ bs) (m + n) := by
  refine ⟨fun a h => ?_, by rw [List.countP_append, ha.2, hb.2]⟩
  rcases List.mem_append.mp h with h | h
  · exact ha.1 a h
  · exact hb.1 a h

/-- Outcomes with few enough true ones are counted, and what follows them is settled from there. -/
lemma settle_unique_append {before : List (Except EvalError Bool)} {m n : Nat}
    (hb : HasTrue before m) (hn : n + m ≤ 1) (rest : List (Except EvalError Bool)) :
    settle uniqueStep (before ++ rest) n = settle uniqueStep rest (n + m) := by
  induction before generalizing m n with
  | nil => simp_all
  | cons a before ih =>
    rcases a with e | _ | _
    · simp at hb
    · simpa [settle, uniqueStep, show ¬ 1 < n by omega] using ih (by simpa using hb) hn
    · obtain ⟨k, hk, rfl⟩ := hasTrue_cons_true_iff.mp hb
      have hstep : ¬ 1 < n + 1 := by omega
      simpa [settle, uniqueStep, hstep, Nat.add_assoc, Nat.add_comm 1 k] using
        ih hk (show n + 1 + k ≤ 1 by omega)

/-- Every list of outcomes decides an answer to a unique quantification.

**Proof sketch.** Induction on the outcomes from the right. If those before the last decide by an
error or a second true one, that stays. Otherwise they are Booleans with at most one true, and the
last one either keeps them so, or is an error, or is a second true one. -/
lemma exists_decides_unique (as : List (Except EvalError Bool)) : ∃ r, Decides .unique as r := by
  have key : (∃ n, HasTrue as n ∧ n ≤ 1) ∨
      (∃ before after, as = before ++ .ok true :: after ∧ HasTrue before 1) ∨
      ∃ e before after n, as = before ++ .error e :: after ∧ HasTrue before n ∧ n ≤ 1 := by
    induction as using List.reverseRecOn with
    | nil => exact .inl ⟨0, by simp, by omega⟩
    | append_singleton as a ih =>
      rcases ih with ⟨n, hn, hle⟩ | ⟨before, after, rfl, hb⟩ | ⟨e, before, after, n, rfl, hb⟩
      · rcases a with e | _ | _
        · exact .inr (.inr ⟨e, as, [], n, rfl, hn, hle⟩)
        · exact .inl ⟨n + 0, hn.append (by simp), hle⟩
        · rcases Nat.le_one_iff_eq_zero_or_eq_one.mp hle with rfl | rfl
          · exact .inl ⟨0 + 1, hn.append (by simp), by omega⟩
          · exact .inr (.inl ⟨as, [], rfl, hn⟩)
      · exact .inr (.inl ⟨before, after ++ [a], by simp, hb⟩)
      · exact .inr (.inr ⟨e, before, after ++ [a], n, by simp, hb⟩)
  rcases key with ⟨n, hn, hle⟩ | h | ⟨e, h⟩
  · rcases Nat.le_one_iff_eq_zero_or_eq_one.mp hle with rfl | rfl
    · exact ⟨.ok false, .inl hn⟩
    · exact ⟨.ok true, hn⟩
  · exact ⟨.ok false, .inr h⟩
  · exact ⟨.error e, h⟩

/-- The decided answer of a unique quantification is the one that is settled for. -/
lemma settle_unique_of_decides {as : List (Except EvalError Bool)} {r : Except EvalError Bool}
    (h : Decides .unique as r) : (settle uniqueStep as 0).map (· == 1) = r := by
  have hall : ∀ n, HasTrue as n → n ≤ 1 → settle uniqueStep as 0 = .ok n := by
    intro n hn hle
    simpa [settle] using settle_unique_append hn (show 0 + n ≤ 1 by omega) []
  rcases r with e | _ | _
  · obtain ⟨before, after, n, rfl, hb, hle⟩ := h
    rw [settle_unique_append hb (by omega)]
    rfl
  · rcases h with h | ⟨before, after, rfl, hb⟩
    · rw [hall 0 h (by omega)]
      rfl
    · rw [settle_unique_append hb (by omega)]
      rfl
  · rw [hall 1 h (by omega)]
    rfl

/-- The answer that is settled for is the decided one, and no other. -/
lemma settle_unique_eq_iff (as : List (Except EvalError Bool)) (r : Except EvalError Bool) :
    (settle uniqueStep as 0).map (· == 1) = r ↔ Decides .unique as r := by
  constructor
  · rintro rfl
    obtain ⟨r, hr⟩ := exists_decides_unique as
    rwa [settle_unique_of_decides hr]
  · exact settle_unique_of_decides

/-- The answer that outcomes settle for. -/
def answer : Quantifier → List (Except EvalError Bool) → Except EvalError Bool
  | .universal, as => settle (untilStep true) as true
  | .existential, as => settle (untilStep false) as false
  | .unique, as => (settle uniqueStep as 0).map (· == 1)

/-- The answer that outcomes settle for is the one they decide, and no other. -/
lemma answer_eq_iff_decides (q : Quantifier) (as : List (Except EvalError Bool))
    (r : Except EvalError Bool) : q.answer as = r ↔ q.Decides as r := by
  cases q with
  | universal =>
    rcases r with e | _ | _
    · exact settle_until_eq_iff true as (by simp)
    · exact settle_until_eq_iff true as (by simp)
    · exact settle_until_eq_go_iff true as
  | existential =>
    rcases r with e | _ | _
    · exact settle_until_eq_iff false as (by simp)
    · exact settle_until_eq_go_iff false as
    · exact settle_until_eq_iff false as (by simp)
  | unique => exact settle_unique_eq_iff as r

/-! ### Scans of determined predicates -/

variable {config : EngineConfig} {env : Context} {p : Context → Eval σ Value}
  {value : Context → Except EvalError Value} {s t : Session σ}

/-- A running interrupter does not ask for an end. -/
lemma terminateRequested_of_running {i : Interrupter} (h : i.level = .running) :
    i.terminateRequested = false := by
  simp [Interrupter.terminateRequested, h]

/-- Asking a determined predicate gives the outcome for the frame, and the interrupter still
runs. -/
lemma result_ask_of_determined (hp : Eval.Determined config p value) (env : Context)
    (q : Quantifier) (frame : Frame) (hs : s.interrupter.level = .running) :
    ∃ t, (q.ask env p frame).result config s =
        (askedOutcome (value (env.extend q.keyword frame)), t) ∧
      t.interrupter.level = .running := by
  have hout := hp.outcome (env.extend q.keyword frame) s hs
  have hrun := hp.running (env.extend q.keyword frame) s hs
  rcases hresult : (p (env.extend q.keyword frame)).result config s with ⟨e | v, t⟩
  · rw [hresult] at hout hrun
    rw [← hout]
    exact ⟨t, Eval.result_bind_of_error hresult, hrun⟩
  · rw [hresult] at hout hrun
    rw [← hout, askedOutcome, ask, Eval.result_bind_of_ok hresult]
    refine ⟨t, ?_, hrun⟩
    cases v.asBool? <;> rfl

/-- A visitor whose decision is given by `step`, and which leaves the interrupter alone. -/
def Decided (visit : β → Bool → Frame → Eval σ (ForInStep β)) (config : EngineConfig)
    (step : β → Bool → ForInStep β) : Prop :=
  ∀ acc holds frame s, ∃ t, (visit acc holds frame).result config s = (.ok (step acc holds), t) ∧
    t.interrupter = s.interrupter

/-- **A scan of a determined predicate** settles its outcomes on the consistent frames, in order.

**Proof sketch.** Induction on the combinations. As the interrupter runs, none is cut off. One
without a frame is passed over; for any other one the predicate's outcome is taken up, and the
visitor goes on or stops as the step does. -/
lemma result_scanList_of_determined (hp : Eval.Determined config p value)
    {visit : β → Bool → Frame → Eval σ (ForInStep β)} {step : β → Bool → ForInStep β}
    (hvisit : Decided visit config step) (q : Quantifier) (ms : List Match) (acc : β)
    (hs : s.interrupter.level = .running) :
    ((q.scanList env p visit ms acc).result config s).1 =
      settle step (q.outcomes env value (ms.filterMap Match.toFrame?)) acc := by
  induction ms generalizing s acc with
  | nil => rfl
  | cons m ms ih =>
    cases hm : m.toFrame? with
    | none =>
      rw [result_scanList_of_none (terminateRequested_of_running hs) hm, ih acc hs]
      simp [hm]
    | some frame =>
      rw [result_scanList_of_some (terminateRequested_of_running hs) hm]
      obtain ⟨t, hask, ht⟩ := result_ask_of_determined hp env q frame hs
      simp only [List.filterMap_cons, hm, outcomes, List.map_cons]
      rcases ho : askedOutcome (value (env.extend q.keyword frame)) with e | holds
      · rw [ho] at hask
        rw [Eval.result_bind_of_error hask, settle]
      · rw [ho] at hask
        obtain ⟨u, hu, hui⟩ := hvisit acc holds frame t
        rw [Eval.result_bind_of_ok hask, Eval.result_bind_of_ok hu, settle]
        cases step acc holds with
        | done acc => rfl
        | yield acc => exact ih acc (by rw [hui, ht])

/-- The visitor of universal quantifications goes on while the outcomes are true. -/
lemma decided_visitUniversal : Decided (visitUniversal (σ := σ)) config (untilStep true) := by
  intro acc holds frame s
  cases holds
  · exact ⟨s.record frame, rfl, rfl⟩
  · exact ⟨s.forget, rfl, rfl⟩

/-- The visitor of existential quantifications goes on while the outcomes are false. -/
lemma decided_visitExistential : Decided (visitExistential (σ := σ)) config (untilStep false) := by
  intro acc holds frame s
  cases holds <;> exact ⟨s, rfl, rfl⟩

/-- The visitor of unique quantifications goes on until two outcomes are true. -/
lemma decided_visitUnique : Decided (visitUnique (σ := σ)) config uniqueStep := by
  intro acc holds frame s
  exact ⟨s, rfl, rfl⟩

/-- What a sequence returns whose second part cannot fail. -/
lemma fst_result_bind {α γ : Type} {x : Eval σ α} {f : α → Eval σ γ} {g : α → γ}
    (hf : ∀ a u, ((f a).result config u).1 = .ok (g a)) :
    ((x >>= f).result config s).1 = (x.result config s).1.map g := by
  rcases h : x.result config s with ⟨e | a, u⟩
  · rw [Eval.result_bind_of_error h]
    rfl
  · rw [Eval.result_bind_of_ok h, hf]
    rfl

/-- What a scan over the bindings of a quantification returns. -/
lemma fst_result_scan_of_determined {bs : List (Binding σ)} {values : List (List Value)}
    (hp : Eval.Determined config p value)
    (hbs : (Binding.resolveEach config.allowUnresolved env bs).result config s = (.ok values, t))
    (ht : t.interrupter.level = .running)
    {visit : β → Bool → Frame → Eval σ (ForInStep β)} {step : β → Bool → ForInStep β}
    (hvisit : Decided visit config step) (q : Quantifier) (startsClear : Bool) (acc : β) :
    ((q.scan bs env p startsClear visit acc).result config s).1 =
      settle step (q.outcomes env value (Binding.frames config.allPossibilities bs values))
        acc := by
  rw [result_scan_of_ok hbs]
  exact result_scanList_of_determined hp hvisit q _ acc (by cases startsClear <;> simpa using ht)

/-- A quantification over a determined predicate gives the answer that is settled for: what follows
its scan cannot fail. -/
lemma fst_result_evaluate_of_determined (q : Quantifier) (bs : List (Binding σ))
    {values : List (List Value)} (hp : Eval.Determined config p value)
    (hbs : (Binding.resolveEach config.allowUnresolved env bs).result config s = (.ok values, t))
    (ht : t.interrupter.level = .running) :
    ((q.evaluate bs p env).result config s).1 =
      q.answer (q.outcomes env value (Binding.frames config.allPossibilities bs values)) := by
  cases q with
  | universal =>
    rw [evaluate, fst_result_bind (g := id) (by rintro (_ | _) u <;> rfl),
      fst_result_scan_of_determined hp hbs ht decided_visitUniversal, Except.map_id]
    rfl
  | existential =>
    rw [evaluate, Eval.result_bind_of_ok (Eval.result_counterexampleSize ..),
      fst_result_bind (g := id) (by intro a u; cases s.counterexample <;> rfl),
      fst_result_scan_of_determined hp hbs ht decided_visitExistential, Except.map_id]
    rfl
  | unique =>
    rw [evaluate, Eval.result_bind_of_ok (Eval.result_counterexampleSize ..),
      fst_result_bind (g := (· == 1)) (by intro a u; cases s.counterexample <;> rfl),
      fst_result_scan_of_determined hp hbs ht decided_visitUnique]
    rfl

/-- **The answer of a quantification.** If the domains of the bindings can be worked out and the
interrupter runs when that is done, a quantification over a determined predicate gives the answer
that the outcomes of the predicate on the consistent frames decide: those frames, in lexicographic
order with the last pattern fastest, that take one match of each pattern in the values of its
binding.

**Proof sketch.** The quantification gives the answer that is settled for
(`fst_result_evaluate_of_determined`), and that is the decided one (`answer_eq_iff_decides`). -/
theorem evaluate_eq_iff_decides (q : Quantifier) (bs : List (Binding σ)) (env : Context)
    {values : List (List Value)} (hp : Eval.Determined config p value)
    (hbs : (Binding.resolveEach config.allowUnresolved env bs).result config s = (.ok values, t))
    (ht : t.interrupter.level = .running) (r : Except EvalError Bool) :
    ((q.evaluate bs p env).result config s).1 = r ↔
      q.Decides (q.outcomes env value (Binding.frames config.allPossibilities bs values)) r := by
  rw [fst_result_evaluate_of_determined q bs hp hbs ht]
  exact answer_eq_iff_decides q _ r

/-- Are the integers `x` and `y` equal? -/
def sameXY (env : Context) : Value :=
  match env.lookup? "x", env.lookup? "y" with
  | some (.int m), some (.int n) => .bool (m == n)
  | _, _ => .nil

/-- In `exists1 x, y in set {1, 2} & x = y` the second true frame decides. -/
theorem evaluate_unique_sameXY :
    Eval.Determined {} (σ := Unit) (fun env => pure (sameXY env)) (fun env => .ok (sameXY env)) ∧
      (Binding.resolveEach false .root [.overIntegers ["x", "y"] [1, 2]]).result {} (.running []) =
        (.ok [[.int 1, .int 2]], .running []) ∧
      (Session.running []).interrupter.level = .running ∧
      ((Quantifier.unique.evaluate [.overIntegers ["x", "y"] [1, 2]]
        (fun env => pure (sameXY env)) .root).result {} (.running [])).1 = .ok false := by
  have hp : Eval.Determined {} (σ := Unit) (fun env => pure (sameXY env))
      (fun env => .ok (sameXY env)) := ⟨fun _ _ _ => rfl, fun _ _ h => h⟩
  have hbs : (Binding.resolveEach false .root [.overIntegers ["x", "y"] [1, 2]]).result {}
      (.running []) = (.ok [[.int 1, .int 2]], .running []) := rfl
  refine ⟨hp, hbs, rfl, (evaluate_eq_iff_decides .unique _ .root hp hbs rfl _).mpr ?_⟩
  have houtcomes : Quantifier.unique.outcomes .root (fun env => .ok (sameXY env))
      (Binding.frames (σ := Unit) false [.overIntegers ["x", "y"] [1, 2]]
        [[.int 1, .int 2]]) = [.ok true, .ok false, .ok false, .ok true] := rfl
  exact houtcomes ▸ .inr ⟨[.ok true, .ok false, .ok false], [], rfl, by simp⟩

end Quantifier

end BoundedLogic
