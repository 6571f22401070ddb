import BoundedLogic.Proofs.Checking.NoTrace
import BoundedLogic.Proofs.Checking.Outcomes
import BoundedLogic.Proofs.Quantifier.LoopHeads
import BoundedLogic.Proofs.Quantifier.Merging

set_option relaxedAutoImplicit false
set_option autoImplicit false

/-!
# Narrower ranges

With narrower ranges a check asks the same predicate on fewer combinations. Their order changes, and
their number, but each of them is one of the combinations over the wider ranges, also where several
patterns share names. So what was found true of all combinations is still found true of all, and
what was found true of none is still found true of none.

Bindings without a range are worked out in both checks, in the same order. What they draw is the
same if the checks begin in the same session, or if what the host computes for them is reproducible.

## Main definitions

* `BoundedLogic.RangeTable.Narrows` — ranges for the same texts, each contained in the other.
* `BoundedLogic.Binding.DrawsWithin` — a binding that draws some of the values of another one.
* `BoundedLogic.Obligation.BeginAlike` — sessions in which two checks draw the same values.

## Main results

* `BoundedLogic.Match.product_subset`, `BoundedLogic.Binding.frames_subset` — from fewer values,
  fewer combinations and frames are made.
* `BoundedLogic.Checker.narrowing_keeps_verdict` — what holds of all values, or of none, in some
  ranges does so in narrower ones.
-/

namespace BoundedLogic

variable {σ : Type}

/-! ### Combinations over fewer values -/

/-- From fewer matches fewer combinations are made. -/
lemma Match.product_subset {mss nss : List (List Match)} (h : List.Forall₂ (· ⊆ ·) mss nss) :
    product mss ⊆ product nss := by
  induction h with
  | nil => exact List.Subset.refl _
  | cons hfirst _ ih =>
    intro m hm
    obtain ⟨n, hn, hrest⟩ := List.mem_flatMap.mp hm
    obtain ⟨k, hk, rfl⟩ := List.mem_map.mp hrest
    exact List.mem_flatMap.mpr ⟨n, hfirst hn, List.mem_map_of_mem (ih hk)⟩

namespace Binding

variable {bs bs' : List (Binding σ)} {values values' : List (List Value)}

/-- In fewer values each pattern finds fewer matches. -/
lemma forall₂_found_subset {b b' : Binding σ} (hpatterns : b.patterns = b'.patterns)
    {vs vs' : List Value} (h : vs ⊆ vs') (allOrders : Bool) :
    List.Forall₂ (· ⊆ ·) (b.found allOrders vs) (b'.found allOrders vs') := by
  rw [found, found, hpatterns, List.forall₂_map_left_iff, List.forall₂_map_right_iff]
  refine List.forall₂_same.mpr fun p _ m hm => ?_
  obtain ⟨v, hv, hmv⟩ := List.mem_flatMap.mp hm
  exact List.mem_flatMap.mpr ⟨v, h hv, hmv⟩

/-- **From fewer values fewer frames** are made, by the same patterns. -/
lemma frames_subset (hpatterns : List.Forall₂ (fun b b' => b.patterns = b'.patterns) bs bs')
    (hvalues : List.Forall₂ (· ⊆ ·) values values') (allOrders : Bool) :
    frames allOrders bs values ⊆ frames allOrders bs' values' := by
  have hfound : List.Forall₂ (· ⊆ ·) (List.zipWith (found allOrders) bs values).flatten
      (List.zipWith (found allOrders) bs' values').flatten := by
    induction hpatterns generalizing values values' with
    | nil => exact .nil
    | cons hb _ ih =>
      cases hvalues with
      | nil => exact .nil
      | cons hvs hrest => exact List.rel_append (forall₂_found_subset hb hvs allOrders) (ih hrest)
  exact List.filterMap_subset _ (Match.product_subset hfound)

/-! ### Drawing fewer values -/

/-- A binding that is overridden has the overriding values, if some pattern asks for them. -/
lemma givenValues_override (b : Binding σ) (range : ValueSet) :
    (b.override range).givenValues = if b.patterns.isEmpty then [] else range.elements := rfl

/-- Wherever `b'` draws values, `b` draws some of them from a related session, for the same
patterns. -/
structure DrawsWithin (S : Session σ → Session σ → Prop) (config : EngineConfig) (env : Context)
    (b b' : Binding σ) : Prop where
  /-- The patterns are the same. -/
  patterns_eq : b.patterns = b'.patterns
  /-- The values are some of those of the other binding. -/
  draws : ∀ {s s' vs' t'}, S s s' →
    (b'.draw config.allowUnresolved env).result config s' = (.ok vs', t') →
    ∃ vs t, (b.draw config.allowUnresolved env).result config s = (.ok vs, t) ∧ vs ⊆ vs' ∧ S t t'

/-- **Working out bindings** that draw within others: where the others can be worked out, so can
they, and each has some of the values of the other.

**Proof sketch.** Induction on the bindings. Each is worked out in a session that the one before has
left, and these remain related. -/
lemma exists_resolveEach_of_drawsWithin {S : Session σ → Session σ → Prop} {config : EngineConfig}
    {env : Context} (h : List.Forall₂ (DrawsWithin S config env) bs bs') {s s' t' : Session σ}
    (hs : S s s') (h' : (resolveEach config.allowUnresolved env bs').result config s' =
      (.ok values', t')) :
    ∃ values t, (resolveEach config.allowUnresolved env bs).result config s = (.ok values, t) ∧
      List.Forall₂ (· ⊆ ·) values values' ∧ S t t' := by
  induction h generalizing s s' values' with
  | nil =>
    obtain ⟨rfl, rfl⟩ : values' = [] ∧ t' = s' := by simpa [resolveEach, eq_comm] using h'
    exact ⟨[], s, rfl, .nil, hs⟩
  | cons hb _ ih =>
    obtain ⟨vs', u', hdraw', hrest'⟩ := Eval.result_bind_eq_ok_iff.mp h'
    obtain ⟨rest', v', hresolve', hpure⟩ := Eval.result_bind_eq_ok_iff.mp hrest'
    cases hpure
    obtain ⟨vs, u, hdraw, hvs, hu⟩ := hb.draws hs hdraw'
    obtain ⟨rest, t, hresolve, hrest, ht⟩ := ih hu hresolve'
    refine ⟨vs :: rest, t, ?_, .cons hvs hrest, ht⟩
    rw [resolveEach, Eval.result_bind_of_ok hdraw, Eval.result_bind_of_ok hresolve]
    rfl

end Binding

/-! ### Narrower range tables -/

/-- The table has ranges for the same texts as the other one, and each of its ranges is contained in
the one there. -/
structure RangeTable.Narrows (R R' : RangeTable) : Prop where
  /-- The texts are the same. -/
  contains_eq : ∀ text, R.contains text = R'.contains text
  /-- Each value of a range is among those of the other range. -/
  subset : ∀ {text range range'}, R.get? text = some range → R'.get? text = some range' →
    range.elements ⊆ range'.elements

/-- It is enough to compare the entries one by one. -/
lemma RangeTable.narrows_of_forall₂ {R R' : RangeTable}
    (h : List.Forall₂ (fun e e' => e.1 = e'.1 ∧ e.2.elements ⊆ e'.2.elements)
      R.entries R'.entries) : R.Narrows R' := by
  obtain ⟨es⟩ := R
  obtain ⟨es'⟩ := R'
  dsimp only at h
  induction h with
  | nil => exact ⟨fun _ => rfl, fun hrange => by cases hrange⟩
  | @cons e e' es es' hfirst _ ih =>
    obtain ⟨htext, helements⟩ := hfirst
    constructor
    · intro text
      have hrest := ih.contains_eq text
      simp only [contains, List.any_cons, htext] at hrest ⊢
      rw [hrest]
    · intro text range range' hrange hrange'
      have hrest := @ih.subset text range range'
      simp only [get?, List.find?_cons, htext] at hrange hrange' hrest
      split at hrange
      · simp_all
      · simp_all

/-- For a text there is either no range in both tables, or there are two, one in the other. -/
lemma RangeTable.Narrows.cases {R R' : RangeTable} (h : R.Narrows R') (text : String) :
    (R.get? text = none ∧ R'.get? text = none) ∨
      ∃ range range', R.get? text = some range ∧ R'.get? text = some range' ∧
        range.elements ⊆ range'.elements := by
  have hsome := h.contains_eq text
  rw [contains_eq_isSome, contains_eq_isSome] at hsome
  cases hrange : R.get? text with
  | none => exact .inl ⟨rfl, by simpa [hrange] using hsome⟩
  | some range =>
    obtain ⟨range', hrange'⟩ : ∃ range', R'.get? text = some range' := by
      simpa [hrange, Option.isSome_iff_exists] using hsome
    exact .inr ⟨range, range', rfl, hrange', h.subset hrange hrange'⟩

/-- The two checks of an obligation begin in the same session, or in two that look alike to a host
whose computed domains are reproducible. -/
def Obligation.BeginAlike (o : Obligation σ) (s s' : Session σ) : Prop :=
  s = s' ∨ (s.interrupter.Alike s'.interrupter ∧
    ∀ b ∈ o.claim.bindings, b.domain.HostSatisfies Eval.Reproducible)

namespace Checker

/-- The checker with other ranges. -/
def withRanges (c : Checker) (R : RangeTable) : Checker :=
  { c with ranges := R }

/-- How the bindings of an obligation are worked out in a check of it, and the session which that
leaves. -/
def resolution (c : Checker) (o : Obligation σ) (s : Session σ) :
    Except EvalError (List (List Value)) × Session σ :=
  (Binding.resolveEach c.config.engine.allowUnresolved (.withFrame "global" c.globals)
    (o.claim.bindings.map c.applyRange)).result c.config.engine (beginning s)

/-- When the bindings of the obligation are worked out, the interrupter runs. -/
def StartsRunning (c : Checker) (o : Obligation σ) (s : Session σ) : Prop :=
  ∀ values t, c.resolution o s = (.ok values, t) → t.interrupter.level = .running

variable {c : Checker} {R R' : RangeTable} {o : Obligation σ} {s s' t : Session σ}
  {S : Session σ → Session σ → Prop} {values : List (List Value)}
  {value : Context → Except EvalError Value}

/-- The interrupter runs then if it ran at first, and what the host computes for domains sends no
commands to it. -/
lemma startsRunning_of_keepsRunning (hs : s.interrupter.level = .running)
    (ho : ∀ b ∈ o.claim.bindings, b.domain.HostSatisfies (Eval.KeepsRunning c.config.engine)) :
    c.StartsRunning o s := by
  intro values t h
  have hbs : ∀ b ∈ o.claim.bindings.map c.applyRange,
      b.domain.HostSatisfies (Eval.KeepsRunning c.config.engine) :=
    List.forall_mem_map.mpr fun b hb => (c.domain_applyRange b).symm ▸ ho b hb
  have hkeeps := (Eval.keptByEngine_keepsRunning c.config.engine).resolveEach hbs
    c.config.engine.allowUnresolved (.withFrame "global" c.globals) (beginning s) hs
  rwa [← resolution, h] at hkeeps

/-- With narrower ranges a binding draws within what it drew, if what is worked out for it is in
step with itself. -/
lemma drawsWithin_applyRange (hR : R.Narrows R') {b : Binding σ}
    (hb : ∀ lenient env, Eval.InStep S (b.draw lenient env) (b.draw lenient env))
    (config : EngineConfig) (env : Context) :
    Binding.DrawsWithin S config env ((c.withRanges R).applyRange b)
      ((c.withRanges R').applyRange b) := by
  rw [applyRange, applyRange]
  rcases hR.cases b.text with ⟨hnone, hnone'⟩ | ⟨range, range', hrange, hrange', hsubset⟩
  · simp only [withRanges, hnone, hnone']
    refine ⟨rfl, fun {s s' vs' t'} hs h => ?_⟩
    obtain ⟨r, t, t'', ht, ht', hS⟩ := hb config.allowUnresolved env config s s' hs
    obtain ⟨rfl, rfl⟩ := Prod.mk.inj (ht'.symm.trans h)
    exact ⟨vs', t, ht, List.Subset.refl _, hS⟩
  · simp only [withRanges, hrange, hrange']
    have hgiven : ∀ range, (b.override range).IsGiven := fun _ => .inl rfl
    refine ⟨rfl, fun {s s' vs' t'} hs h => ?_⟩
    rw [(hgiven range').draw_eq] at h
    rw [(hgiven range).draw_eq]
    cases h
    refine ⟨_, s, rfl, ?_, hs⟩
    rw [Binding.givenValues_override, Binding.givenValues_override]
    split
    case isTrue => exact List.Subset.refl []
    case isFalse => exact hsubset

/-- In sessions in which two checks of an obligation begin alike, what is worked out for its
bindings is in step with itself, under a relation that keeps the level. -/
lemma exists_inStep_of_beginAlike (h : o.BeginAlike s s') :
    ∃ S : Session σ → Session σ → Prop, S (beginning s) (beginning s') ∧
      (∀ t t', S t t' → t.interrupter.level = t'.interrupter.level) ∧
      ∀ b ∈ o.claim.bindings, ∀ lenient env,
        Eval.InStep S (b.draw lenient env) (b.draw lenient env) := by
  rcases h with rfl | ⟨hs, ho⟩
  · refine ⟨Eq, rfl, fun t t' ht => ht ▸ rfl, fun b _ lenient env config t t' ht => ?_⟩
    exact ⟨_, _, _, rfl, ht ▸ rfl, rfl⟩
  · refine ⟨Session.Alike, ⟨hs, rfl, rfl⟩, fun t t' ht => ht.interrupter.level_eq, fun b hb => ?_⟩
    exact Eval.keptByEngine_reproducible.draw (ho b hb)

/-- **Narrower ranges give fewer frames.** Where the bindings can be worked out with the wider
ranges, so can they with the narrower ones, and each of the resulting frames is one of those
before. -/
lemma exists_resolution_of_narrows (c : Checker) (hR : R.Narrows R') (hs : o.BeginAlike s s')
    {values' : List (List Value)} {t' : Session σ}
    (h : (c.withRanges R').resolution o s' = (.ok values', t')) (allOrders : Bool) :
    ∃ values t, (c.withRanges R).resolution o s = (.ok values, t) ∧
      t.interrupter.level = t'.interrupter.level ∧
      Binding.frames allOrders (o.claim.bindings.map (c.withRanges R).applyRange) values ⊆
        Binding.frames allOrders (o.claim.bindings.map (c.withRanges R').applyRange) values' := by
  obtain ⟨S, hbegin, hlevel, hstep⟩ := exists_inStep_of_beginAlike hs
  have hwithin : List.Forall₂
      (Binding.DrawsWithin S c.config.engine (.withFrame "global" c.globals))
      (o.claim.bindings.map (c.withRanges R).applyRange)
      (o.claim.bindings.map (c.withRanges R').applyRange) := by
    rw [List.forall₂_map_left_iff, List.forall₂_map_right_iff]
    exact List.forall₂_same.mpr fun b hb => drawsWithin_applyRange hR (hstep b hb) _ _
  obtain ⟨values, t, hresolve, hvalues, ht⟩ :=
    Binding.exists_resolveEach_of_drawsWithin hwithin hbegin h
  have hpatterns := hwithin.imp fun b b' hb => hb.patterns_eq
  exact ⟨values, t, hresolve, hlevel t t' ht, Binding.frames_subset hpatterns hvalues allOrders⟩

/-! ### Verdicts -/

/-- A check that ends in a truth value has worked out the bindings. -/
lemma exists_resolution_of_evaluation {b : Bool} (h : (c.evaluation o s).1 = .ok b) :
    ∃ values t, c.resolution o s = (.ok values, t) := by
  rcases hresolve : c.resolution o s with ⟨e | values, t⟩
  · have hfails : c.evaluation o s = (.error e, t) :=
      Quantifier.result_evaluate_eq_error_iff.mpr (.inl hresolve)
    rw [hfails] at h
    cases h
  · exact ⟨values, t, rfl⟩

/-- The answer in a check of a determined predicate, whose bindings cannot be changed, is that of
its outcomes on the frames over the ranges. -/
lemma fst_evaluation_of_determined (hbody : o.claim.body.reachableBindings = [])
    (hp : Eval.Determined c.config.engine o.claim.body.evaluate value)
    (h : c.resolution o s = (.ok values, t)) (ht : t.interrupter.level = .running) :
    (c.evaluation o s).1 = o.claim.quantifier.answer
      (o.claim.quantifier.outcomes (.withFrame "global" c.globals) value
        (Binding.frames c.config.engine.allPossibilities (o.claim.bindings.map c.applyRange)
          values)) := by
  have hsame : o.claim.body.mapBindings c.applyRange = o.claim.body :=
    Predicate.mapBindings_eq_self (by simp [hbody])
  unfold evaluation Quantification.evaluate Obligation.mapBindings Quantification.mapBindings
  rw [hsame]
  exact Quantifier.fst_result_evaluate_of_determined _ _ hp h ht

/-- **An answer for which all outcomes must be alike** stays the answer with narrower ranges. -/
lemma fst_evaluation_of_narrows (c : Checker) (hR : R.Narrows R')
    (hbody : o.claim.body.reachableBindings = [])
    (hp : Eval.Determined c.config.engine o.claim.body.evaluate value)
    (hs : o.BeginAlike s s') (hrunning : (c.withRanges R').StartsRunning o s') {go : Bool}
    (hgo : ∀ as, o.claim.quantifier.answer as = .ok go ↔ ∀ a ∈ as, a = .ok go)
    (h : ((c.withRanges R').evaluation o s').1 = .ok go) :
    ((c.withRanges R).evaluation o s).1 = .ok go := by
  obtain ⟨values', t', hresolve'⟩ := exists_resolution_of_evaluation h
  have ht' := hrunning values' t' hresolve'
  obtain ⟨values, t, hresolve, hlevel, hframes⟩ :=
    exists_resolution_of_narrows c hR hs hresolve' c.config.engine.allPossibilities
  have ht : t.interrupter.level = .running := hlevel.trans ht'
  rw [fst_evaluation_of_determined (c := c.withRanges R') hbody hp hresolve' ht', hgo] at h
  rw [fst_evaluation_of_determined (c := c.withRanges R) hbody hp hresolve ht, hgo]
  intro a ha
  exact h a (List.map_subset _ hframes ha)

/-- **Narrower ranges keep the verdict.** Let two tables have ranges for the same texts, each range
of the one contained in that of the other. Let the claim of an obligation be a quantification over
any bindings, with a predicate that has no bindings which can be changed, whose outcome is
determined by the values of names and which leaves the interrupter running. If the claim is
universal and passes with the wider ranges, it passes with the narrower ones; if it is existential
and fails with the wider ranges, it fails with the narrower ones, without a counterexample unless
that was withdrawn.

**Proof sketch.** Each frame over the narrower ranges is one over the wider ranges
(`exists_resolution_of_narrows`), and the same context is made of it. A universal claim passes if
the outcomes are all true, an existential one fails if they are all false. -/
theorem narrowing_keeps_verdict (c : Checker) (hR : R.Narrows R')
    (hbody : o.claim.body.reachableBindings = [])
    (hp : Eval.Determined c.config.engine o.claim.body.evaluate value)
    (hs : o.BeginAlike s s') (hrunning : (c.withRanges R').StartsRunning o s') :
    (o.claim.quantifier = .universal →
      (((c.withRanges R').check o).run s').1.1.outcome = .passed →
        (((c.withRanges R).check o).run s).1.1.outcome = .passed) ∧
      (o.claim.quantifier = .existential →
        (∃ bs, (((c.withRanges R').check o).run s').1.1.outcome = .failed bs) →
          ∃ bs, (((c.withRanges R).check o).run s).1.1.outcome = .failed bs ∧
            (((c.withRanges R).evaluation o s).2.withdrawn = none → bs = [])) := by
  constructor
  · intro hq hpassed
    obtain ⟨ho, htrue⟩ := (outcome_eq_passed_iff _).mp hpassed
    refine (outcome_eq_passed_iff _).mpr ⟨ho, ?_⟩
    refine fst_evaluation_of_narrows c hR hbody hp hs hrunning (fun as => ?_) htrue
    rw [hq]
    exact Quantifier.settle_until_eq_go_iff true as
  · rintro hq ⟨bs, hfailed⟩
    have hne : o.claim.quantifier ≠ .universal := by simp [hq]
    obtain ⟨ho, hfalse, -⟩ := (outcome_eq_failed_iff _).mp hfailed
    have hstill : ((c.withRanges R).evaluation o s).1 = .ok false := by
      refine fst_evaluation_of_narrows c hR hbody hp hs hrunning (fun as => ?_) hfalse
      rw [hq]
      exact Quantifier.settle_until_eq_go_iff false as
    refine ⟨_, (outcome_eq_failed_iff _).mpr ⟨ho, hstill, rfl⟩, fun hfirst => ?_⟩
    exact (nothingRecorded_of_evaluation _ hne hstill).bindings_eq_nil hfirst

/-- A claim about `x in set {1, 2, 3}` and `y, x in set {2, 3, 4}`, in which `x` is drawn twice. -/
def aboutXY (q : Quantifier) (holds : Int64 → Int64 → Bool) : Obligation Unit where
  number := 1
  kind := "order"
  claim :=
    { quantifier := q
      bindings := [.overIntegers ["x"] [1, 2, 3], .overIntegers ["y", "x"] [2, 3, 4]]
      body := .host fun env => pure (match env.lookup? "x", env.lookup? "y" with
        | some (.int m), some (.int n) => .bool (holds m n)
        | _, _ => .nil) }

/-- Ranges for both of these bindings. -/
def rangesForXY (forX forYX : List Value) : RangeTable :=
  ⟨[("x in set \x7b1, 2, 3\x7d", .ofDistinct forX),
    ("y, x in set \x7b2, 3, 4\x7d", .ofDistinct forYX)]⟩

/-- With the ranges `{3, 1, 2}` and `{2, 5}` it is true that `x ≤ y` always and `y < x` never. With
the narrower ranges `{2}` and `{5, 2}` the frames come in another order, and this is still so. -/
theorem narrowing_keeps_verdict_aboutXY :
    let c : Checker := {}
    let R := rangesForXY [.int 2] [.int 5, .int 2]
    let R' := rangesForXY [.int 3, .int 1, .int 2] [.int 2, .int 5]
    let always := aboutXY .universal fun x y => decide (x ≤ y)
    let never := aboutXY .existential fun x y => decide (y < x)
    let s := Session.running []
    R.Narrows R' ∧ always.claim.body.reachableBindings = [] ∧
      never.claim.body.reachableBindings = [] ∧
      (c.withRanges R').StartsRunning always s ∧ (c.withRanges R').StartsRunning never s ∧
      (((c.withRanges R).check always).run s).1.1.outcome = .passed ∧
      (((c.withRanges R).check never).run s).1.1.outcome = .failed [] := by
  intro c R R' always never s
  have hR : R.Narrows R' := by
    refine RangeTable.narrows_of_forall₂ (.cons ⟨rfl, ?_⟩ (.cons ⟨rfl, ?_⟩ .nil))
    · simp [ValueSet.ofDistinct]
    · simp [ValueSet.ofDistinct]
  have hruns : ∀ q holds, (c.withRanges R').StartsRunning (aboutXY q holds) s := by
    intro q holds
    exact startsRunning_of_keepsRunning rfl
      (by simp [aboutXY, Binding.overIntegers, Domain.HostSatisfies])
  have halways : (((c.withRanges R').check always).run s).1.1.outcome = .passed := by decide +kernel
  have hnever : (((c.withRanges R').check never).run s).1.1.outcome = .failed [] := by decide +kernel
  have hpassed := (narrowing_keeps_verdict c hR (o := always) rfl
    ⟨fun _ _ _ => rfl, fun _ _ h => h⟩ (.inl rfl) (hruns _ _)).1 rfl halways
  obtain ⟨bs, hfailed, hfirst⟩ := (narrowing_keeps_verdict c hR (o := never) rfl
    ⟨fun _ _ _ => rfl, fun _ _ h => h⟩ (.inl rfl) (hruns _ _)).2 rfl ⟨[], hnever⟩
  obtain rfl : bs = [] := hfirst (by decide +kernel)
  exact ⟨hR, rfl, rfl, hruns _ _, hruns _ _, hpassed, hfailed⟩

end Checker

end BoundedLogic
