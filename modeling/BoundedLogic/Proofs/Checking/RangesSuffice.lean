import BoundedLogic.Proofs.Checking.ErrorPaths
import BoundedLogic.Proofs.DefaultRange.Proposals
import BoundedLogic.Proofs.Quantifier.Merging

set_option relaxedAutoImplicit false
set_option autoImplicit false

/-!
# Default ranges suffice for checking

The bindings of obligations are gone through three times: to propose ranges, to put them in place,
and when the quantifications are evaluated. In a nest of quantifications around a predicate without
bindings these are the same bindings, each known by the same text each time. So if all of them are
bindings over types and a range was proposed for every one, a check finds a range for every binding,
and evaluates nothing but the predicate in the middle; if it reports an error, that predicate has
failed or answered with something other than a truth value.

## Main definitions

* `BoundedLogic.Predicate.leaf` — the predicate in the middle of a nest of quantifications.
* `BoundedLogic.Obligation.IsOverTypes` — a nest whose bindings all range over types.
* `BoundedLogic.Eval.AnswersError` — asked for a truth value, an evaluation ends in an error.

## Main results

* `BoundedLogic.Predicate.exists_leaf_of_answersError` — an error of a nest whose bindings are given
  comes from its leaf.
* `BoundedLogic.Checker.default_ranges_suffice` — what the checks report where all bindings have
  default ranges.
-/

namespace BoundedLogic

variable {σ : Type}

/-! ### Nests of quantifications -/

namespace Predicate

mutual

/-- The bindings that can be changed are among those that are shown. -/
lemma mem_bindings_of_mem_reachableBindings {b : Binding σ} :
    ∀ {p : Predicate σ}, b ∈ p.reachableBindings → b ∈ p.bindings
  | .host _, h => h
  | .quantified _ _ _, h =>
    List.mem_append.mpr ((List.mem_append.mp h).imp_right mem_bindings_of_mem_reachableBindings)
  | .compound _ _, h => mem_listBindings_of_mem_listReachableBindings h
  | .shared _, h => by cases h

/-- The same for a list of predicates. -/
lemma mem_listBindings_of_mem_listReachableBindings {b : Binding σ} :
    ∀ {ps : List (Predicate σ)}, b ∈ listReachableBindings ps → b ∈ listBindings ps
  | [], h => h
  | _ :: _, h => List.mem_append.mpr ((List.mem_append.mp h).imp
      mem_bindings_of_mem_reachableBindings mem_listBindings_of_mem_listReachableBindings)

end

/-- The predicate in the middle of a nest of quantifications. -/
def leaf : Predicate σ → Predicate σ
  | .host run => .host run
  | .quantified _ _ body => body.leaf
  | .compound parts run => .compound parts run
  | .shared p => .shared p

/-- A predicate without bindings has none that can be changed. -/
lemma mapBindings_of_bindings_eq_nil {p : Predicate σ} (h : p.bindings = [])
    (f : Binding σ → Binding σ) : p.mapBindings f = p := by
  refine mapBindings_eq_self fun b hb => ?_
  have hmem := mem_bindings_of_mem_reachableBindings hb
  rw [h] at hmem
  cases hmem

/-- In a nest around a predicate without bindings all bindings are changed, and nothing else. -/
lemma mapBindings_of_leaf (f : Binding σ → Binding σ) :
    ∀ {p : Predicate σ}, p.leaf.bindings = [] →
      (p.mapBindings f).bindings = p.bindings.map f ∧ (p.mapBindings f).leaf = p.leaf
  | .host _, _ => ⟨rfl, rfl⟩
  | .quantified q bs body, h => by
    obtain ⟨hbindings, hleaf⟩ := mapBindings_of_leaf f (p := body) h
    rw [mapBindings, bindings, bindings, hbindings, List.map_append]
    exact ⟨rfl, hleaf⟩
  | .compound parts run, h => by
    have hnone : (compound parts run).bindings = [] := h
    rw [mapBindings_of_bindings_eq_nil hnone, hnone]
    exact ⟨rfl, rfl⟩
  | .shared p, h => by
    have hnone : (shared p).bindings = [] := h
    rw [mapBindings_of_bindings_eq_nil hnone, hnone]
    exact ⟨rfl, rfl⟩

end Predicate

namespace Obligation

/-- A nest of quantifications around a predicate without bindings, all of whose own bindings are
type bindings over names of types. -/
structure IsOverTypes (o : Obligation σ) : Prop where
  /-- The predicate in the middle has no bindings. -/
  leaf : o.claim.body.leaf.bindings = []
  /-- The bindings range over types. -/
  bindings : ∀ b ∈ o.bindings, b.typeName?.isSome

/-- The bindings of a nest can all be changed. -/
lemma IsOverTypes.bindings_mapBindings {o : Obligation σ} (h : o.IsOverTypes)
    (f : Binding σ → Binding σ) : (o.mapBindings f).bindings = o.bindings.map f := by
  show o.claim.bindings.map f ++ (o.claim.body.mapBindings f).bindings = _
  rw [(Predicate.mapBindings_of_leaf f h.leaf).1, ← List.map_append]
  rfl

end Obligation

/-! ### Where an error comes from -/

/-- Asked for a truth value, the evaluation ends in the error: in one of its own, or in that its
value is not a truth value. -/
inductive Eval.AnswersError (config : EngineConfig) (x : Eval σ Value) (s : Session σ) :
    EvalError → Prop
  /-- The evaluation fails. -/
  | raised {e : EvalError} (h : (x.result config s).1 = .error e) : AnswersError config x s e
  /-- The evaluation ends in some other value. -/
  | notBoolean {v : Value} (h : (x.result config s).1 = .ok v) (hv : v.asBool? = none) :
    AnswersError config x s (.notBoolean v.kind.name)

namespace Quantifier

open Eval

variable {q : Quantifier} {env : Context} {p : Context → Eval σ Value} {config : EngineConfig}
  {s t : Session σ} {e : EvalError}

/-- A scan that asks its predicate in vain has its error from there. -/
lemma answersError_of_ask {f : Frame} (h : (q.ask env p f).result config s = (.error e, t)) :
    AnswersError config (p (env.extend q.keyword f)) s e := by
  rw [ask, result_bind_eq_error_iff] at h
  rcases h with h | ⟨v, u, hv, h⟩
  · exact .raised (fst_result_eq_iff.mpr ⟨t, h⟩)
  · cases hbool : v.asBool? with
    | some holds => simp [hbool] at h
    | none =>
      rw [hbool] at h
      cases h
      exact .notBoolean (fst_result_eq_iff.mpr ⟨t, hv⟩) hbool

/-- **A quantification over given values** that fails, and was not told to stop, has asked its
predicate in vain on some combination. -/
lemma exists_asked_of_error {bs : List (Binding σ)} (hbs : ∀ b ∈ bs, b.IsGiven)
    (h : ((q.evaluate bs p env).result config s).1 = .error e) (he : e.isCancelled = false) :
    ∃ m ms acc f v, q.ComesTo config bs p env s ⟨m :: ms, acc, v⟩ ∧
      v.interrupter.level ≠ .terminating ∧ m.toFrame? = some f ∧
      AnswersError config (p (env.extend q.keyword f)) v e := by
  obtain ⟨t, ht⟩ := fst_result_eq_iff.mp h
  rcases result_evaluate_eq_error_iff.mp ht with hresolve | ⟨head, hcomes, hfails⟩
  · rw [Binding.resolveEach_of_draw_eq fun b hb => (hbs b hb).draw_eq _ env] at hresolve
    cases hresolve
  · cases hfails with
    | terminate => cases he
    | ask hlevel hm hask => exact ⟨_, _, _, _, _, hcomes, hlevel, hm, answersError_of_ask hask⟩

end Quantifier

namespace Predicate

open Eval

variable {config : EngineConfig} {e : EvalError}

/-- **An error of a nest** whose bindings are given comes from the predicate in the middle, which is
evaluated outside of any binding.

**Proof sketch.** Induction on the nest. A quantification always answers with a truth value; if it
fails, and was not told to stop, it has asked its body in vain. -/
theorem exists_leaf_of_answersError (he : e.isCancelled = false) :
    ∀ {p : Predicate σ}, (∀ b ∈ p.bindings, b.IsGiven) → ∀ {env : Context} {s : Session σ},
      AnswersError config (p.evaluate env) s e → ∃ env' u,
        RunsWithin config (p.leaf.evaluate env') u (p.evaluate env) s [] ∧
          AnswersError config (p.leaf.evaluate env') u e
  | .host _, _, env, s, h => ⟨env, s, .here, h⟩
  | .compound _ _, _, env, s, h => ⟨env, s, .here, h⟩
  | .shared _, _, env, s, h => ⟨env, s, .here, h⟩
  | .quantified q bs body, hgiven, env, s, h => by
    obtain ⟨hbs, hbody⟩ := List.forall_mem_append.mp hgiven
    -- its answer is a truth value, so the error is that the quantification fails
    have hfails : ((q.evaluate bs body.evaluate env).result config s).1 = .error e := by
      cases h with
      | raised h =>
        obtain ⟨t, ht⟩ := fst_result_eq_iff.mp h
        rcases result_bind_eq_error_iff.mp ht with ht | ⟨holds, u, -, hpure⟩
        · exact fst_result_eq_iff.mpr ⟨t, ht⟩
        · cases hpure
      | notBoolean h hv =>
        obtain ⟨t, ht⟩ := fst_result_eq_iff.mp h
        obtain ⟨holds, u, -, hpure⟩ := result_bind_eq_ok_iff.mp ht
        cases hpure
        cases hv
    obtain ⟨m, ms, acc, f, v, hcomes, hlevel, hm, hasked⟩ :=
      Quantifier.exists_asked_of_error hbs hfails he
    obtain ⟨env', u, hwithin, hleaf⟩ := exists_leaf_of_answersError he hbody hasked
    exact ⟨env', u, .quantified (.asked hcomes hlevel hm hwithin), hleaf⟩

end Predicate

/-- The error of a quantification whose bindings are given comes from the predicate in the middle of
its body. -/
lemma Quantification.exists_leaf_of_error {claim : Quantification σ} {env : Context}
    {config : EngineConfig} {s : Session σ} {e : EvalError}
    (hgiven : ∀ b ∈ claim.allBindings, b.IsGiven)
    (h : ((claim.evaluate env).result config s).1 = .error e) (he : e.isCancelled = false) :
    ∃ env' u,
      Eval.RunsWithin config (claim.body.leaf.evaluate env') u (claim.evaluate env) s [] ∧
        Eval.AnswersError config (claim.body.leaf.evaluate env') u e := by
  obtain ⟨hbs, hbody⟩ := List.forall_mem_append.mp hgiven
  obtain ⟨m, ms, acc, f, v, hcomes, hlevel, hm, hasked⟩ := Quantifier.exists_asked_of_error hbs h he
  obtain ⟨env', u, hwithin, hleaf⟩ := Predicate.exists_leaf_of_answersError he hbody hasked
  exact ⟨env', u, .asked hcomes hlevel hm hwithin, hleaf⟩

/-! ### Checks -/

namespace CheckerConfig

variable {c : CheckerConfig} {os : List (Obligation σ)} {shapeOf : String → Option TypeShape}

/-- If all bindings range over types and none is skipped, every binding has a range. -/
lemma exists_range_of_nothing_skipped (hos : ∀ o ∈ os, o.IsOverTypes)
    (hskipped : (c.defaultRanges os shapeOf).2 = []) {o : Obligation σ} (ho : o ∈ os)
    {b : Binding σ} (hb : b ∈ o.bindings) :
    ∃ range, (c.defaultRanges os shapeOf).1.get? b.text = some range := by
  obtain ⟨p, h, hp⟩ := accounts_defaultRanges c os shapeOf
  rw [hp] at hskipped ⊢
  have hmem : ∀ {o : Obligation σ}, o ∈ os → ∀ {b}, b ∈ o.bindings → b ∈ allBindings os :=
    fun ho _ hb => List.mem_flatMap.mpr ⟨_, ho, hb⟩
  have hall : ∀ b ∈ allBindings os, b.typeName?.isSome := by
    intro b hb
    obtain ⟨o, ho, hb⟩ := List.mem_flatMap.mp hb
    exact (hos o ho).bindings b hb
  have hfirst := Binding.isSome_firstType? hall (hmem ho hb)
  rcases (h.accounted_iff b.text).mpr hfirst with hcontains | htext
  · rw [RangeTable.contains_eq_isSome] at hcontains
    exact Option.isSome_iff_exists.mp hcontains
  · rw [show p.skipped = [] from hskipped] at htext
    cases htext

end CheckerConfig

namespace Checker

variable {checker : Checker} {o : Obligation σ}

/-- Putting a range in place leaves the text of a binding alone. -/
lemma text_applyRange (b : Binding σ) : (checker.applyRange b).text = b.text := by
  rw [applyRange]
  cases checker.ranges.get? b.text <;> rfl

/-- If a binding has a range, that range stands in for its domain. -/
lemma exists_overridden_applyRange {b : Binding σ}
    (h : ∃ range, checker.ranges.get? b.text = some range) :
    ∃ range, checker.ranges.get? (checker.applyRange b).text = some range ∧
      (checker.applyRange b).overridden = some range := by
  obtain ⟨range, hrange⟩ := h
  refine ⟨range, by rwa [text_applyRange], ?_⟩
  rw [applyRange, hrange]
  rfl

/-- If all bindings have ranges, none is missing. -/
lemma missingRanges_check_eq_nil
    (h : ∀ b ∈ o.bindings, ∃ range, checker.ranges.get? b.text = some range) (s : Session σ) :
    ((checker.check o).run s).1.1.missingRanges = [] := by
  cases hcheckable : o.isCheckable with
  | false =>
    rw [run_check_of_not_isCheckable checker hcheckable]
  | true =>
    rw [run_check_of_isCheckable checker hcheckable rfl]
    refine List.eq_nil_iff_forall_not_mem.mpr fun text htext => ?_
    obtain ⟨⟨b, hb, rfl⟩, hnone⟩ := (mem_missingRanges_iff checker).mp htext
    have hmem : b ∈ o.bindings := List.mem_append.mpr ((List.mem_append.mp hb).imp_right
      Predicate.mem_bindings_of_mem_reachableBindings)
    obtain ⟨range, hrange⟩ := h b hmem
    rw [hnone] at hrange
    cases hrange

/-- A check that reports an error has evaluated its obligation to that error. -/
lemma exists_error_of_check {s : Session σ} {message : String}
    (h : ((checker.check o).run s).1.1.outcome = .error message) :
    ∃ e, (((o.mapBindings checker.applyRange).claim.evaluate
        (.withFrame "global" checker.globals)).result checker.config.engine (beginning s)).1 =
          .error e ∧
      e.isCancelled = false ∧ e.message = message := by
  cases ho : o.isCheckable with
  | false =>
    rw [run_check_of_not_isCheckable checker ho] at h
    cases h
  | true =>
    rcases hresult : ((o.mapBindings checker.applyRange).claim.evaluate
      (.withFrame "global" checker.globals)).result checker.config.engine (beginning s) with
      ⟨answer, t⟩
    rw [run_check_of_isCheckable checker ho hresult] at h
    obtain ⟨e, rfl, he, hmessage⟩ :=
      ((describes_outcomeOf t.firstCounterexample answer).error_iff message).mp h
    exact ⟨e, rfl, he, hmessage.symm⟩

/-- **Default ranges suffice.** Let the obligations be nests of quantifications around predicates
without bindings, whose own bindings all range over types, and let no binding be skipped when
default ranges are made for them. Then a check of one of the obligations with these ranges, under
any configuration, among any global values and from any session,

* reports no missing range;
* evaluates the obligation with all its bindings, at any depth, changed to draw the values of the
  ranges under their texts, so that none of them can fail to be worked out;
* reports an error only if that is the error to which the evaluation of the predicate in the middle
  comes somewhere in its course, outside of the bindings: its own, or that it answers with something
  other than a truth value. -/
theorem default_ranges_suffice {c : CheckerConfig} {os : List (Obligation σ)}
    {shapeOf : String → Option TypeShape} (hos : ∀ o ∈ os, o.IsOverTypes)
    (hskipped : (c.defaultRanges os shapeOf).2 = [])
    (hranges : checker.ranges = (c.defaultRanges os shapeOf).1) (ho : o ∈ os) (s : Session σ) :
    let ranged := o.mapBindings checker.applyRange
    ((checker.check o).run s).1.1.missingRanges = [] ∧
      ranged.bindings = o.bindings.map checker.applyRange ∧
      (∀ b ∈ ranged.bindings, ∃ range, checker.ranges.get? b.text = some range ∧
        ∀ lenient env, b.resolveValues lenient env = pure range.elements) ∧
      ∀ message, ((checker.check o).run s).1.1.outcome = .error message → ∃ env u e,
        Eval.RunsWithin checker.config.engine (o.claim.body.leaf.evaluate env) u
          (ranged.claim.evaluate (.withFrame "global" checker.globals)) (beginning s) [] ∧
        Eval.AnswersError checker.config.engine (o.claim.body.leaf.evaluate env) u e ∧
        e.message = message := by
  intro ranged
  have hnest := hos o ho
  have hbindings := hnest.bindings_mapBindings checker.applyRange
  have hget : ∀ b ∈ o.bindings, ∃ range, checker.ranges.get? b.text = some range := by
    intro b hb
    rw [hranges]
    exact CheckerConfig.exists_range_of_nothing_skipped hos hskipped ho hb
  -- the text is the same after the change, so the range of a binding is still found under it
  have happly : ∀ b ∈ ranged.bindings, ∃ range, checker.ranges.get? b.text = some range ∧
      b.overridden = some range := by
    intro b hb
    rw [hbindings] at hb
    obtain ⟨a, ha, rfl⟩ := List.mem_map.mp hb
    exact exists_overridden_applyRange (hget a ha)
  refine ⟨missingRanges_check_eq_nil hget s, hbindings, fun b hb => ?_, fun message hmessage => ?_⟩
  · obtain ⟨range, hrange, hover⟩ := happly b hb
    refine ⟨range, hrange, fun lenient env => ?_⟩
    rw [Binding.resolveValues, hover]
  · have hgiven : ∀ b ∈ ranged.bindings, b.IsGiven := by
      intro b hb
      obtain ⟨range, -, hover⟩ := happly b hb
      exact .inl (by rw [hover]; rfl)
    obtain ⟨e, herror, he, rfl⟩ := exists_error_of_check hmessage
    obtain ⟨env, u, hwithin, hleaf⟩ := Quantification.exists_leaf_of_error hgiven herror he
    have hsame : ranged.claim.body.leaf = o.claim.body.leaf :=
      (Predicate.mapBindings_of_leaf checker.applyRange hnest.leaf).2
    rw [hsame] at hwithin hleaf
    exact ⟨env, u, e, hwithin, hleaf, rfl⟩

/-- For every truth value there is another, in the middle of which the host has no answer. -/
def unanswered : Obligation Unit where
  number := 1
  kind := "subtype"
  claim :=
    { quantifier := .universal
      bindings := [{ patterns := [.name "x"], kind := .ofType, domain := .type "bool" }]
      body := .quantified .existential
        [{ patterns := [.name "y"], kind := .ofType, domain := .type "bool" }]
        (.host fun _ => throw (.predicate "no answer")) }

/-- The check of `unanswered` with default ranges reports the failure of its leaf, and that is where
the failure comes from. -/
theorem default_ranges_suffice_unanswered :
    let ranges := (({} : CheckerConfig).defaultRanges [unanswered] fun _ => some .bool).1
    let checker : Checker := { ranges := ranges }
    let s : Session Unit := { interrupter := {}, counterexample := none, host := () }
    ((checker.check unanswered).run s).1.1.outcome = .error "no answer" ∧
      ((checker.check unanswered).run s).1.1.missingRanges = [] ∧
      ∃ env u e,
        Eval.RunsWithin checker.config.engine (unanswered.claim.body.leaf.evaluate env) u
          ((unanswered.mapBindings checker.applyRange).claim.evaluate
            (.withFrame "global" checker.globals)) (beginning s) [] ∧
        Eval.AnswersError checker.config.engine (unanswered.claim.body.leaf.evaluate env) u e ∧
        e.message = "no answer" := by
  intro ranges checker s
  have hnest : unanswered.IsOverTypes := ⟨rfl, by
    simp [unanswered, Obligation.bindings, Quantification.allBindings, Predicate.bindings,
      Binding.typeName?]⟩
  have hfails : ((checker.check unanswered).run s).1.1.outcome = .error "no answer" := by rfl
  have hskipped : (({} : CheckerConfig).defaultRanges [unanswered] fun _ => some .bool).2 = [] := by
    rfl
  have hranges : checker.ranges = ranges := rfl
  obtain ⟨hmissing, -, -, hsource⟩ := default_ranges_suffice (List.forall_mem_singleton.mpr hnest)
    hskipped hranges (List.mem_singleton_self _) s
  exact ⟨hfails, hmissing, hsource _ hfails⟩

end Checker

end BoundedLogic
