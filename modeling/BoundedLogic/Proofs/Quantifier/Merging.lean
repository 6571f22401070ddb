import BoundedLogic.Proofs.Evaluation.Closure
import BoundedLogic.Proofs.Pattern.Declarative
import BoundedLogic.Proofs.Quantifier.Verdict
import BoundedLogic.Proofs.Scope.Contents

set_option relaxedAutoImplicit false
set_option autoImplicit false

/-!
# Adjacent quantifiers of one kind

Two universal quantifications, one right inside the other, say the same as one over the bindings of
both, and so do two existential ones. For evaluations this is a statement about loops: a loop over
the combinations of all bindings is a loop of loops, as long as the outer loop takes the outcome of
an inner one as it would take the outcomes in it one by one. It does so in the two quantifications
that end with the first outcome of a kind. The one that counts takes them differently.

The combinations of both parts are consistent together if they are so by themselves, provided that
the parts bind no common name. Then it is also the same whether they bind their names in one scope
or in two.

## Main definitions

* `BoundedLogic.Binding.IsGiven` — a binding whose values are known without evaluating anything.
* `BoundedLogic.Binding.NamesApart` — bindings that have no common name.
* `BoundedLogic.Binding.givenCombinations` — the combinations over given values.
* `BoundedLogic.Quantifier.givenOutcome` — what a quantification over given values evaluates to.

## Main results

* `BoundedLogic.Quantifier.outcomes_flatMap_append` — the outcomes on combinations of two parts.
* `BoundedLogic.Quantifier.settle_until_flatMap` — outcomes are settled in one go or in groups.
* `BoundedLogic.Eval.keptByEngine_keepsRunning` — the engine leaves a running interrupter running.
* `BoundedLogic.Quantifier.evaluate_append` — adjacent quantifiers of one kind can be merged.
-/

namespace BoundedLogic

variable {σ : Type}

/-! ### Combinations of two parts -/

namespace Match

/-- A combination of more lists is one of the first lists, followed by one of the others. -/
lemma product_append (mss nss : List (List Match)) :
    product (mss ++ nss) = (product mss).flatMap fun m => (product nss).map (m ++ ·) := by
  induction mss with
  | nil => simp [product, empty_append]
  | cons ms mss ih =>
    simp only [List.cons_append, product, ih, List.map_flatMap, List.flatMap_assoc,
      List.flatMap_map, List.map_map, Function.comp_def, append_assoc]

/-- A combination binds what the matches in it bind. -/
lemma exists_mem_pairs_of_mem_product {mss : List (List Match)} {m : Match} (hm : m ∈ product mss)
    {p : Named} (hp : p ∈ m.pairs) : ∃ ms ∈ mss, ∃ n ∈ ms, p ∈ n.pairs := by
  induction mss generalizing m with
  | nil =>
    obtain rfl := List.mem_singleton.mp hm
    cases hp
  | cons ms mss ih =>
    obtain ⟨n, hn, k, hk, rfl⟩ : ∃ n ∈ ms, ∃ k ∈ product mss, n ++ k = m := by
      simpa [product] using hm
    rcases List.mem_append.mp hp with hp | hp
    · exact ⟨ms, List.mem_cons_self, n, hn, hp⟩
    · obtain ⟨ns, hns, h⟩ := ih hk hp
      exact ⟨ns, List.mem_cons_of_mem ms hns, h⟩

/-- The names of two matches that bind no common name have the same values in one scope as in two
scopes, one inside the other. -/
lemma Apart.lookup?_extend {m n : Match} (h : m.Apart n) {f g k : Frame}
    (hf : m.toFrame? = some f) (hg : n.toFrame? = some g) (hk : (m ++ n).toFrame? = some k)
    (c : Context) (title : String) (name : String) :
    (c.extend title k).lookup? name = ((c.extend title f).extend title g).lookup? name := by
  rw [Context.lookup?_extend, Context.lookup?_extend, Context.lookup?_extend, get?_of_toFrame? hf,
    get?_of_toFrame? hg, get?_of_toFrame? hk, get?, get?, get?, pairs_append, Named.find?_append]
  cases hm : Named.find? m.pairs name with
  | none => rw [Option.none_or, Option.none_or]
  | some v =>
    cases hn : Named.find? n.pairs name with
    | none => rw [Option.or_none, Option.none_or]
    | some w =>
      exact (h _ (Named.mem_of_find? hm) _ (Named.mem_of_find? hn) rfl).elim

end Match

namespace Quantifier

variable {q : Quantifier} {env : Context} {value : Context → Except EvalError Value}

/-- The outcome on the frame of two matches that bind no common name is that on the frame of the
second one, in the scope that the first one makes. -/
lemma map_askedOutcome_append (hvalue : ∀ c c' : Context, (∀ n, c.lookup? n = c'.lookup? n) →
      value c = value c') {m n : Match} (h : m.Apart n) {f : Frame} (hf : m.toFrame? = some f)
    (title : String) :
    ((m ++ n).toFrame?.map fun k => askedOutcome (value (env.extend title k))) =
      n.toFrame?.map fun g => askedOutcome (value ((env.extend title f).extend title g)) := by
  have hm : m.isConsistent = true := by rw [Match.isConsistent, hf, Option.isSome_some]
  have hiff : (m ++ n).toFrame?.isSome = true ↔ n.toFrame?.isSome = true :=
    h.isConsistent_append_iff.trans (and_iff_right hm)
  cases hg : n.toFrame? with
  | none =>
    rw [hg] at hiff
    have hk : (m ++ n).toFrame? = none :=
      Option.not_isSome_iff_eq_none.mp fun hsome => Bool.false_ne_true (hiff.mp hsome)
    rw [hk]
    rfl
  | some g =>
    rw [hg] at hiff
    obtain ⟨k, hk⟩ := Option.isSome_iff_exists.mp (hiff.mpr rfl)
    rw [hk, Option.map_some, Option.map_some, hvalue _ _ (h.lookup?_extend hf hg hk env title)]

/-- The outcomes on the consistent ones of some combinations. -/
lemma outcomes_filterMap (ms : List Match) :
    q.outcomes env value (ms.filterMap Match.toFrame?) =
      ms.filterMap fun m => m.toFrame?.map fun f => askedOutcome (value (env.extend q.keyword f)) :=
  List.map_filterMap

/-- There are none on combinations that begin with an inconsistent match. -/
lemma outcomes_map_append_of_none {m : Match} {ns : List Match} (h : ∀ n ∈ ns, m.Apart n)
    (hm : m.toFrame? = none) :
    q.outcomes env value ((ns.map (m ++ ·)).filterMap Match.toFrame?) = [] := by
  rw [outcomes_filterMap, List.filterMap_map, List.filterMap_eq_nil_iff]
  intro n hn
  have hinconsistent : ¬ (m ++ n).isConsistent = true := by
    rw [(h n hn).isConsistent_append_iff, Match.isConsistent, hm]
    exact fun hboth => Bool.false_ne_true hboth.1
  rw [Function.comp_apply, Option.not_isSome_iff_eq_none.mp hinconsistent, Option.map_none]

/-- On combinations that begin with a consistent match they are those on the rest, in the scope of
that match. -/
lemma outcomes_map_append_of_some (hvalue : ∀ c c' : Context,
      (∀ n, c.lookup? n = c'.lookup? n) → value c = value c') {m : Match} {ns : List Match}
    (h : ∀ n ∈ ns, m.Apart n) {f : Frame} (hm : m.toFrame? = some f) :
    q.outcomes env value ((ns.map (m ++ ·)).filterMap Match.toFrame?) =
      q.outcomes (env.extend q.keyword f) value (ns.filterMap Match.toFrame?) := by
  rw [outcomes_filterMap, outcomes_filterMap, List.filterMap_map]
  exact List.filterMap_congr fun n hn => map_askedOutcome_append hvalue (h n hn) hm q.keyword

/-- **The outcomes on combinations of two parts** that bind no common name are, for each consistent
combination of the first part, those on the consistent combinations of the second one in the scope
that the first one makes. -/
lemma outcomes_flatMap_append (hvalue : ∀ c c' : Context, (∀ n, c.lookup? n = c'.lookup? n) →
      value c = value c') {ms ns : List Match} (h : ∀ m ∈ ms, ∀ n ∈ ns, m.Apart n) :
    q.outcomes env value ((ms.flatMap fun m => ns.map (m ++ ·)).filterMap Match.toFrame?) =
      (ms.filterMap Match.toFrame?).flatMap fun f =>
        q.outcomes (env.extend q.keyword f) value (ns.filterMap Match.toFrame?) := by
  induction ms with
  | nil => rfl
  | cons m ms ih =>
    obtain ⟨hfirst, hrest⟩ := List.forall_mem_cons.mp h
    have hsplit : q.outcomes env value (((m :: ms).flatMap fun m => ns.map (m ++ ·)).filterMap
        Match.toFrame?) = q.outcomes env value ((ns.map (m ++ ·)).filterMap Match.toFrame?) ++
          (ms.filterMap Match.toFrame?).flatMap fun f =>
            q.outcomes (env.extend q.keyword f) value (ns.filterMap Match.toFrame?) := by
      rw [← ih hrest, List.flatMap_cons, List.filterMap_append, outcomes, List.map_append]
      rfl
    rw [hsplit]
    cases hm : m.toFrame? with
    | none =>
      rw [outcomes_map_append_of_none hfirst hm, List.filterMap_cons_none hm, List.nil_append]
    | some f =>
      rw [outcomes_map_append_of_some hvalue hfirst hm, List.filterMap_cons_some hm,
        List.flatMap_cons]

/-! ### Settling in groups -/

/-- The first outcomes of a list can be settled before the others are looked at. -/
lemma settle_until_append (go : Bool) (as bs : List (Except EvalError Bool)) :
    settle (untilStep go) (as ++ bs) go =
      settle (untilStep go) (settle (untilStep go) as go :: bs) go := by
  induction as with
  | nil => simp [settle, untilStep]
  | cons a as ih =>
    rcases a with e | holds
    · rfl
    · by_cases h : holds = go
      · simpa [settle, untilStep, h] using ih
      · simp [settle, untilStep, h]

/-- **Outcomes are settled in one go or in groups**, each group for one outcome. -/
lemma settle_until_flatMap {α : Type} (go : Bool) (g : α → List (Except EvalError Bool))
    (xs : List α) :
    settle (untilStep go) (xs.flatMap g) go =
      settle (untilStep go) (xs.map fun x => settle (untilStep go) (g x) go) go := by
  induction xs with
  | nil => rfl
  | cons x xs ih =>
    rw [List.flatMap_cons, List.map_cons, settle_until_append]
    rcases settle (untilStep go) (g x) go with e | holds
    · rfl
    · by_cases h : holds = go
      · simpa [settle, untilStep, h] using ih
      · simp [settle, untilStep, h]

/-- The same for the answers of quantifications, of the two kinds that do not count. -/
lemma answer_flatMap (hq : q ≠ .unique) {α : Type} (g : α → List (Except EvalError Bool))
    (xs : List α) : q.answer (xs.flatMap g) = q.answer (xs.map fun x => q.answer (g x)) := by
  cases q with
  | universal => exact settle_until_flatMap true g xs
  | existential => exact settle_until_flatMap false g xs
  | unique => exact absurd rfl hq

/-- Asking a quantification gives its answer. -/
lemma askedOutcome_map_bool (r : Except EvalError Bool) : askedOutcome (r.map .bool) = r := by
  cases r <;> rfl

end Quantifier

/-! ### Given values -/

namespace Binding

/-- The values of the binding are given: its domain is overridden, or it is a literal that fits the
form of the binding. -/
def IsGiven (b : Binding σ) : Prop :=
  b.overridden.isSome ∨ ∃ v, b.domain = .value v ∧ (enumerate? b.kind v).isSome

/-- These values, if the binding has a pattern that asks for them. -/
def givenValues (b : Binding σ) : List Value :=
  if b.patterns.isEmpty then []
  else
    match b.overridden, b.domain with
    | some vs, _ => vs.elements
    | none, .value v => (enumerate? b.kind v).getD []
    | none, _ => []

/-- They are drawn in every context, and without a trace. -/
lemma IsGiven.draw_eq {b : Binding σ} (h : b.IsGiven) (lenient : Bool) (env : Context) :
    b.draw lenient env = pure b.givenValues := by
  rw [draw, givenValues, resolveValues]
  split
  case isTrue => rfl
  case isFalse =>
    cases ho : b.overridden with
    | some vs => rfl
    | none =>
      rw [IsGiven, ho] at h
      obtain ⟨v, hv, hsome⟩ := h.resolve_left Bool.false_ne_true
      obtain ⟨vs, hvs⟩ := Option.isSome_iff_exists.mp hsome
      simp only [hv, Domain.resolve, pure_bind, hvs]
      rfl

/-- The patterns of the bindings have no name in common. -/
def NamesApart (as bs : List (Binding σ)) : Prop :=
  ∀ a ∈ as, ∀ b ∈ bs, ∀ p ∈ a.patterns, ∀ p' ∈ b.patterns, ∀ n ∈ p.names, n ∉ p'.names

/-- The combinations over given values. -/
def givenCombinations (allOrders : Bool) (bs : List (Binding σ)) : List Match :=
  Match.product (bs.flatMap fun b => b.found allOrders b.givenValues)

/-- A combination binds names of the patterns. -/
lemma exists_name_of_mem_givenCombinations {allOrders : Bool} {bs : List (Binding σ)} {m : Match}
    (hm : m ∈ givenCombinations allOrders bs) {p : Named} (hp : p ∈ m.pairs) :
    ∃ b ∈ bs, ∃ pattern ∈ b.patterns, p.1 ∈ pattern.names := by
  obtain ⟨ms, hms, n, hn, hpn⟩ := Match.exists_mem_pairs_of_mem_product hm hp
  obtain ⟨b, hb, hfound⟩ := List.mem_flatMap.mp hms
  obtain ⟨pattern, hpattern, rfl⟩ := List.mem_map.mp hfound
  obtain ⟨v, -, hv⟩ := List.mem_flatMap.mp hn
  exact ⟨b, hb, pattern, hpattern, (Pattern.fits_of_mem_matchings hv).mem_names hpn⟩

/-- Combinations of bindings without a common name bind no common name. -/
lemma NamesApart.apart {as bs : List (Binding σ)} (h : NamesApart as bs) {allOrders : Bool}
    {m n : Match} (hm : m ∈ givenCombinations allOrders as)
    (hn : n ∈ givenCombinations allOrders bs) : m.Apart n := by
  intro p hp q hq hpq
  obtain ⟨a, ha, pattern, hpattern, hpname⟩ := exists_name_of_mem_givenCombinations hm hp
  obtain ⟨b, hb, pattern', hpattern', hqname⟩ := exists_name_of_mem_givenCombinations hn hq
  exact h a ha b hb pattern hpattern pattern' hpattern' p.1 hpname (hpq ▸ hqname)

end Binding

/-! ### Interrupters that are left running -/

namespace Eval

/-- A running interrupter is left running. -/
def KeepsRunning (config : EngineConfig) {α : Type} (x : Eval σ α) : Prop :=
  x.LeadsTo (fun s t => s.interrupter.level = .running → t.interrupter.level = .running) config

/-- **The engine leaves a running interrupter running.** -/
theorem keptByEngine_keepsRunning (config : EngineConfig) :
    KeptByEngine fun _ (x : Eval σ _) => x.KeepsRunning config := by
  refine keptByEngine_leadsTo
    (L := fun s t => s.interrupter.level = .running → t.interrupter.level = .running)
    ⟨fun _ => id, fun hst htu => htu ∘ hst, fun reason s hs => ?_⟩ (fun _ _ => id) config
  show (s.interrupter.shouldTerminate reason).2.level = .running
  rw [Interrupter.shouldTerminate, hs]
  exact hs

end Eval

namespace Quantifier

variable {q : Quantifier} {config : EngineConfig} {env : Context} {p : Context → Eval σ Value}
  {value : Context → Except EvalError Value} {s : Session σ}

/-- The outcome of a quantification over given values, as a function of the context. -/
def givenOutcome (config : EngineConfig) (q : Quantifier) (bs : List (Binding σ))
    (value : Context → Except EvalError Value) (env : Context) : Except EvalError Bool :=
  q.answer (q.outcomes env value
    ((Binding.givenCombinations config.allPossibilities bs).filterMap Match.toFrame?))

/-- It is what a quantification over a determined predicate evaluates to. -/
lemma fst_result_evaluate_of_given (q : Quantifier) {bs : List (Binding σ)}
    (hbs : ∀ b ∈ bs, b.IsGiven) (hp : Eval.Determined config p value) (env : Context)
    (hs : s.interrupter.level = .running) :
    ((q.evaluate bs p env).result config s).1 = q.givenOutcome config bs value env := by
  have hdraw : Binding.resolveEach config.allowUnresolved env bs =
      pure (bs.map Binding.givenValues) :=
    Binding.resolveEach_of_draw_eq fun b hb => (hbs b hb).draw_eq _ env
  have hresolve : (Binding.resolveEach config.allowUnresolved env bs).result config s =
      (.ok (bs.map Binding.givenValues), s) := by
    rw [hdraw]
    rfl
  rw [fst_result_evaluate_of_determined q bs hp hresolve hs, Binding.frames,
    Binding.combinations_map]
  rfl

/-- A quantification over given values and a determined predicate is a determined predicate. -/
lemma determined_quantified (q : Quantifier) {bs : List (Binding σ)} {body : Predicate σ}
    (hbs : ∀ b ∈ bs, b.IsGiven) (hbody : Eval.Determined config body.evaluate value) :
    Eval.Determined config (Predicate.quantified q bs body).evaluate
      fun c => (q.givenOutcome config bs value c).map .bool where
  outcome := by
    intro c s hs
    rw [← fst_result_evaluate_of_given q hbs hbody c hs]
    exact fst_result_bind fun _ _ => rfl
  running := by
    intro c
    have hkept := Eval.keptByEngine_keepsRunning (σ := σ) config
    have hdraw : ∀ lenient, (Binding.resolveEach lenient c bs).KeepsRunning config := by
      intro lenient
      rw [Binding.resolveEach_of_draw_eq fun b hb => (hbs b hb).draw_eq lenient c]
      exact hkept.pure _
    exact hkept.bind (hkept.quantifier_of_resolveEach q hdraw hbody.running) fun _ => hkept.pure _

/-- **Adjacent quantifiers of one kind can be merged**, unless they count. Let the values of all
bindings be given, let those of the outer quantification have no name in common with those of the
inner one, and let the predicate depend on the values of names alone. While the interrupter runs,
the quantification over the bindings of both gives the same answer as the one inside the other, or
fails with the same error.

**Proof sketch.** The outcomes on the combinations of all bindings are those of the inner loops, one
after another (`outcomes_flatMap_append`). Settling them in one go is settling them in groups, one
for each combination of the outer bindings (`answer_flatMap`), and that is what the inner
quantification does. -/
theorem evaluate_append (hq : q ≠ .unique) {as bs : List (Binding σ)} {body : Predicate σ}
    (has : ∀ a ∈ as, a.IsGiven) (hbs : ∀ b ∈ bs, b.IsGiven) (hnames : Binding.NamesApart as bs)
    (hbody : Eval.Determined config body.evaluate value)
    (hvalue : ∀ c c' : Context, (∀ n, c.lookup? n = c'.lookup? n) → value c = value c')
    (env : Context) {s s' : Session σ} (hs : s.interrupter.level = .running)
    (hs' : s'.interrupter.level = .running) :
    ((q.evaluate (as ++ bs) body.evaluate env).result config s).1 =
      ((q.evaluate as (Predicate.quantified q bs body).evaluate env).result config s').1 := by
  have hall : ∀ b ∈ as ++ bs, b.IsGiven := fun b hb =>
    (List.mem_append.mp hb).elim (has b) (hbs b)
  have hcombinations : Binding.givenCombinations config.allPossibilities (as ++ bs) =
      (Binding.givenCombinations config.allPossibilities as).flatMap fun m =>
        (Binding.givenCombinations config.allPossibilities bs).map (m ++ ·) := by
    rw [Binding.givenCombinations, List.flatMap_append, Match.product_append]
    rfl
  have hflat : q.givenOutcome config (as ++ bs) value env = q.answer
      (((Binding.givenCombinations config.allPossibilities as).filterMap Match.toFrame?).map
        fun f => q.givenOutcome config bs value (env.extend q.keyword f)) := by
    rw [givenOutcome, hcombinations,
      outcomes_flatMap_append hvalue fun m hm n hn => hnames.apart hm hn, answer_flatMap hq]
    rfl
  have hnested : q.givenOutcome config as (fun c => (q.givenOutcome config bs value c).map .bool)
      env = q.answer (((Binding.givenCombinations config.allPossibilities as).filterMap
        Match.toFrame?).map fun f => q.givenOutcome config bs value (env.extend q.keyword f)) := by
    simp only [givenOutcome, outcomes, askedOutcome_map_bool]
  rw [fst_result_evaluate_of_given q hall hbody env hs,
    fst_result_evaluate_of_given q has (determined_quantified q hbs hbody) env hs', hflat, hnested]

/-- In `exists x in set {1, 2}, x in set {2, 3}, y in set {1} & x = y`, where the set of `y` is
overridden by `{3, 2}`, the quantification over `y` can stand inside the one over `x`. -/
theorem evaluate_append_sameXY :
    let as : List (Binding Unit) := [.overIntegers ["x"] [1, 2], .overIntegers ["x"] [2, 3]]
    let bs : List (Binding Unit) :=
      [(Binding.overIntegers ["y"] [1]).override (.ofDistinct [.int 3, .int 2])]
    let body : Predicate Unit := .host fun c => pure (sameXY c)
    existential ≠ .unique ∧ (∀ a ∈ as, a.IsGiven) ∧ (∀ b ∈ bs, b.IsGiven) ∧
      Binding.NamesApart as bs ∧ Eval.Determined {} body.evaluate (fun c => .ok (sameXY c)) ∧
      (∀ c c' : Context, (∀ n, c.lookup? n = c'.lookup? n) →
        (Except.ok (sameXY c) : Except EvalError Value) = .ok (sameXY c')) ∧
      ((existential.evaluate as (Predicate.quantified .existential bs body).evaluate .root).result
        {} (.running [])).1 = .ok true := by
  intro as bs body
  have hq : existential ≠ .unique := by decide
  have has : ∀ a ∈ as, a.IsGiven := by
    rintro a ha
    simp only [as, List.mem_cons, List.not_mem_nil, or_false] at ha
    rcases ha with rfl | rfl <;> exact .inr ⟨_, rfl, rfl⟩
  have hbs : ∀ b ∈ bs, b.IsGiven := List.forall_mem_singleton.mpr (.inl rfl)
  have hnames : Binding.NamesApart as bs := by
    simp [Binding.NamesApart, as, bs, Binding.overIntegers, Binding.override, Pattern.names,
      Pattern.occurrences]
  have hbody : Eval.Determined {} body.evaluate (fun c => .ok (sameXY c)) :=
    ⟨fun _ _ _ => rfl, fun _ _ h => h⟩
  have hvalue : ∀ c c' : Context, (∀ n, c.lookup? n = c'.lookup? n) →
      (Except.ok (sameXY c) : Except EvalError Value) = .ok (sameXY c') := by
    intro c c' h
    rw [sameXY, sameXY, h, h]
  have hflat : ((existential.evaluate (as ++ bs) body.evaluate .root).result {} (.running [])).1 =
      .ok true := by
    decide +kernel
  exact ⟨hq, has, hbs, hnames, hbody, hvalue,
    (evaluate_append hq has hbs hnames hbody hvalue .root rfl rfl).symm.trans hflat⟩

end Quantifier

end BoundedLogic
