import BoundedLogic.Proofs.Evaluation.Closure
import BoundedLogic.Proofs.Quantifier.LoopHeads

set_option relaxedAutoImplicit false
set_option autoImplicit false

/-!
# Evaluations in step

Two evaluations go in step if from sessions that are related, in whatever sense, they end in the
same way and leave related sessions. A scan by itself sees no more of a session than whether a
terminate has been sent and the frames that are recorded. So if related sessions look the same in
these two respects, the domains of two scans are worked out alike and their predicates go in step,
then the scans end alike: they come to the same heads of their loops, over the same combinations.

## Main definitions

* `BoundedLogic.Eval.EndAlike`, `BoundedLogic.Eval.InStep` — evaluations that end in the same way,
  from given sessions and from all related ones.
* `BoundedLogic.Session.UnseenByScans` — a difference between sessions that no scan sees.
* `BoundedLogic.Quantifier.AskedInStep` — predicates that go in step wherever they are asked.

## Main results

* `BoundedLogic.Session.UnseenByScans.evaluate` — quantifications over predicates in step end alike.
* `BoundedLogic.Session.UnseenByScans.comesTo_iff` — they come to the same heads.
-/

namespace BoundedLogic

variable {σ : Type} {R : Session σ → Session σ → Prop}

namespace Eval

variable {α β : Type}

/-- Two evaluations, each from a session of its own, end in the same way, and the sessions they
leave are related. -/
def EndAlike (R : Session σ → Session σ → Prop) (config : EngineConfig) (x : Eval σ α)
    (s : Session σ) (y : Eval σ α) (s' : Session σ) : Prop :=
  ∃ r t t', x.result config s = (r, t) ∧ y.result config s' = (r, t') ∧ R t t'

/-- From related sessions the evaluations end in the same way, and they leave related sessions. -/
def InStep (R : Session σ → Session σ → Prop) (x y : Eval σ α) : Prop :=
  ∀ config s s', R s s' → EndAlike R config x s y s'

/-- The same the other way around. -/
lemma EndAlike.flip {config : EngineConfig} {x y : Eval σ α} {s s' : Session σ}
    (h : EndAlike R config x s y s') : EndAlike (Function.swap R) config y s' x s := by
  obtain ⟨r, t, t', hs, hs', ht⟩ := h
  exact ⟨r, t', t, hs', hs, ht⟩

/-- Values. -/
lemma inStep_pure (a : α) : InStep R (pure a : Eval σ α) (pure a) :=
  fun _ s s' h => ⟨.ok a, s, s', rfl, rfl, h⟩

/-- Failures. -/
lemma inStep_throw (e : EvalError) : InStep R (throw e : Eval σ α) (throw e) :=
  fun _ s s' h => ⟨.error e, s, s', rfl, rfl, h⟩

/-- Reading the configuration. -/
lemma inStep_read : InStep R (read : Eval σ EngineConfig) read :=
  fun config s s' h => ⟨.ok config, s, s', rfl, rfl, h⟩

/-- Sequences of two evaluations, from given sessions. -/
lemma EndAlike.bind {config : EngineConfig} {s s' : Session σ} {x y : Eval σ α}
    {f g : α → Eval σ β} (hx : EndAlike R config x s y s') (hf : ∀ a, InStep R (f a) (g a)) :
    EndAlike R config (x >>= f) s (y >>= g) s' := by
  obtain ⟨r, t, t', hs, hs', ht⟩ := hx
  cases r with
  | error e => exact ⟨.error e, t, t', result_bind_of_error hs, result_bind_of_error hs', ht⟩
  | ok a =>
    rw [EndAlike, result_bind_of_ok hs, result_bind_of_ok hs']
    exact hf a config t t' ht

/-- Sequences of two evaluations. -/
lemma InStep.bind {x y : Eval σ α} {f g : α → Eval σ β} (hx : InStep R x y)
    (hf : ∀ a, InStep R (f a) (g a)) : InStep R (x >>= f) (y >>= g) :=
  fun config s s' h => (hx config s s' h).bind hf

/-- Failures reported in another way. -/
lemma InStep.rethrow (report : EvalError → EvalError) {x y : Eval σ α} (hx : InStep R x y) :
    InStep R (x.rethrow report) (y.rethrow report) := by
  intro config s s' h
  obtain ⟨r, t, t', hs, hs', ht⟩ := hx config s s' h
  rw [EndAlike, Eval.rethrow, Eval.rethrow, result_bind_of_ok (result_attempt ..),
    result_bind_of_ok (result_attempt ..), hs, hs']
  cases r with
  | error e => exact ⟨.error (report e), t, t', rfl, rfl, ht⟩
  | ok a => exact ⟨.ok a, t, t', rfl, rfl, ht⟩

/-! ### Enumerating subsets -/

section

variable (hstop : ∀ reason s s', R s s' →
  ((shouldTerminate reason).run s).1 = ((shouldTerminate reason).run s').1 ∧
    R ((shouldTerminate reason).run s).2 ((shouldTerminate reason).run s').2)

include hstop

/-- Asking a number of times leads from related sessions to related ones. -/
lemma stateAfter_inStep (reason : String) {s s' : Session σ} (h : R s s') (k : Nat) :
    R (stateAfter (shouldTerminate reason) s k) (stateAfter (shouldTerminate reason) s' k) := by
  induction k with
  | zero => exact h
  | succ k ih => exact (hstop reason _ _ ih).2

/-- Enumerating the subsets of a set of values, as the answers are the same in related sessions. -/
lemma run_powerSet_inStep (reason : String) (vs : ValueSet) (limit : Nat) {s s' : Session σ}
    (h : R s s') :
    ∃ r t t', (powerSet (shouldTerminate reason) vs limit).run.run s = (r, t) ∧
      (powerSet (shouldTerminate reason) vs limit).run.run s' = (r, t') ∧ R t t' := by
  have hstate := stateAfter_inStep hstop reason h
  obtain ⟨r, k, hs, hs'⟩ := run_subsets_of_same_answers
    (fun k => (hstop reason _ _ (hstate k)).1) vs.elements limit
  rw [run_powerSet, run_powerSet, hs, hs']
  exact ⟨_, _, _, rfl, rfl, hstate k⟩

/-- Working out a domain of subsets. -/
lemma inStep_evalPowerSet (vs : ValueSet) :
    InStep R (Domain.evalPowerSet vs : Eval σ ValueSet) (Domain.evalPowerSet vs) := by
  intro config s s' h
  rw [EndAlike, Domain.evalPowerSet, result_bind_of_ok (result_read ..),
    result_bind_of_ok (result_read ..)]
  refine InStep.bind (fun _ s s' h => ?_) (fun r => ?_) config s s' h
  · obtain ⟨r, t, t', hs, hs', ht⟩ :=
      run_powerSet_inStep hstop "power set" vs config.powersetLimit h
    exact ⟨.ok r, t, t', by rw [onSession, result_ofResult, hs], by
      rw [onSession, result_ofResult, hs'], ht⟩
  · cases r with
    | ok parts => exact inStep_pure parts
    | error e => exact inStep_throw _

end

end Eval

/-! ### Differences that no scan sees -/

/-- The relation is a difference between sessions that no scan sees: it does not concern the level
of a terminate, nor the recorded frames, and it does not go away or turn into another one when
frames are recorded or forgotten. -/
structure Session.UnseenByScans (R : Session σ → Session σ → Prop) : Prop where
  /-- The sessions are both at the level of a terminate, or none of them is. -/
  terminating_iff : ∀ {s s'}, R s s' →
    (s.interrupter.level = .terminating ↔ s'.interrupter.level = .terminating)
  /-- The same frames are recorded. -/
  counterexample_eq : ∀ {s s'}, R s s' → s.counterexample = s'.counterexample
  /-- The sessions remain related when other frames are recorded in both. -/
  withCounterexample : ∀ {s s'}, R s s' → ∀ c,
    R { s with counterexample := c } { s' with counterexample := c }

/-- The predicates go in step wherever a scan asks one of them, which is without a terminate. -/
def Quantifier.AskedInStep (R : Session σ → Session σ → Prop) (p p' : Context → Eval σ Value) :
    Prop :=
  ∀ c config s s', R s s' → s.interrupter.level ≠ .terminating →
    Eval.EndAlike R config (p c) s (p' c) s'

namespace Session.UnseenByScans

open Eval Quantifier

variable (hR : UnseenByScans R)

include hR

/-- The same the other way around. -/
lemma flip : UnseenByScans (Function.swap R) where
  terminating_iff h := (hR.terminating_iff h).symm
  counterexample_eq h := (hR.counterexample_eq h).symm
  withCounterexample h c := hR.withCounterexample h c

/-- The predicates are asked in step the other way around as well. -/
lemma askedInStep_flip {p p' : Context → Eval σ Value} (hp : AskedInStep R p p') :
    AskedInStep (Function.swap R) p' p :=
  fun c config s' s h hlevel => (hp c config s s' h (mt (hR.terminating_iff h).mp hlevel)).flip

/-! ### What a scan does by itself -/

/-- Looking at the level. -/
lemma terminateRequested : InStep R (terminateRequested : Eval σ Bool) terminateRequested := by
  intro config s s' h
  refine ⟨.ok s.interrupter.terminateRequested, s, s', rfl, ?_, h⟩
  have hsame : s'.interrupter.terminateRequested = s.interrupter.terminateRequested := by
    rw [Bool.eq_iff_iff, terminateRequested_eq_true_iff, terminateRequested_eq_true_iff]
    exact (hR.terminating_iff h).symm
  rw [result_terminateRequested, hsame]

/-- Changing the recorded frames. -/
lemma modifyCounterexample (f : Counterexample → Counterexample) :
    InStep R (modifyCounterexample f : Eval σ Unit) (Eval.modifyCounterexample f) := by
  intro config s s' h
  refine ⟨.ok (), _, _, rfl, rfl, ?_⟩
  dsimp only
  rw [hR.counterexample_eq h]
  exact hR.withCounterexample h _

/-- Cutting the recorded frames back in the end, from given sessions. -/
lemma endAlike_restoring {α : Type} {config : EngineConfig} {x y : Eval σ α} {s s' : Session σ}
    (h : R s s') (hx : EndAlike R config x s y s') :
    EndAlike R config x.restoring s y.restoring s' := by
  rw [EndAlike, Eval.restoring, Eval.restoring,
    result_bind_of_ok (result_counterexampleSize ..),
    result_bind_of_ok (result_counterexampleSize ..), hR.counterexample_eq h]
  refine hx.bind fun a => InStep.bind ?_ fun _ => inStep_pure a
  cases s'.counterexample.map Counterexample.size with
  | none => exact inStep_pure ()
  | some n => exact hR.modifyCounterexample _

/-- Cutting the recorded frames back in the end. -/
lemma restoring {α : Type} {x y : Eval σ α} (hx : InStep R x y) :
    InStep R x.restoring y.restoring :=
  fun config s s' h => hR.endAlike_restoring h (hx config s s' h)

/-! ### Scans -/

variable {config : EngineConfig} {q : Quantifier} {bs : List (Binding σ)} {env : Context}
  {p p' : Context → Eval σ Value} {s s' : Session σ}

omit hR in
/-- Asking predicates that go in step. -/
lemma ask {f : Frame}
    (hp : EndAlike R config (p (env.extend q.keyword f)) s (p' (env.extend q.keyword f)) s') :
    EndAlike R config (q.ask env p f) s (q.ask env p' f) s' := by
  refine hp.bind fun v => ?_
  cases v.asBool? with
  | none => exact inStep_throw _
  | some holds => exact inStep_pure holds

/-- The visitors, which only keep account. -/
lemma visitor (q : Quantifier) (acc : Tally q) (holds : Bool) (f : Frame) :
    InStep R (q.visitor acc holds f) (Quantifier.visitor q acc holds f) := by
  cases q with
  | universal =>
    cases holds <;> exact (hR.modifyCounterexample _).bind fun _ => inStep_pure _
  | existential | unique => exact inStep_pure _

/-- Scans over the same combinations, by induction on these. Both are cut off by a terminate, or
none of them is. -/
lemma scanList {β : Type} (hp : AskedInStep R p p')
    {visit : β → Bool → Frame → Eval σ (ForInStep β)}
    (hvisit : ∀ acc holds f, InStep R (visit acc holds f) (visit acc holds f)) (ms : List Match)
    (acc : β) : InStep R (q.scanList env p visit ms acc) (q.scanList env p' visit ms acc) := by
  induction ms generalizing acc with
  | nil => exact inStep_pure acc
  | cons m ms ih =>
    intro config s s' h
    by_cases hlevel : s.interrupter.level = .terminating
    · have hlevel' := (hR.terminating_iff h).mp hlevel
      exact ⟨_, s, s',
        result_scanList_of_terminating (terminateRequested_eq_true_iff.mpr hlevel) _ _ _,
        result_scanList_of_terminating (terminateRequested_eq_true_iff.mpr hlevel') _ _ _, h⟩
    · have hgo := terminateRequested_eq_false_iff.mpr hlevel
      have hgo' := terminateRequested_eq_false_iff.mpr (mt (hR.terminating_iff h).mpr hlevel)
      cases hm : m.toFrame? with
      | none =>
        rw [EndAlike, result_scanList_of_none hgo hm, result_scanList_of_none hgo' hm]
        exact ih acc config s s' h
      | some f =>
        rw [EndAlike, result_scanList_of_some hgo hm, result_scanList_of_some hgo' hm]
        refine (ask (hp _ config s s' h hlevel)).bind fun holds =>
          (hvisit acc holds f).bind fun step => ?_
        cases step with
        | done acc => exact inStep_pure acc
        | yield acc => exact ih acc

/-- Scans over the same bindings, if their domains are worked out alike from the two sessions. -/
lemma scan {β : Type} (hp : AskedInStep R p p')
    (hbs : EndAlike R config (Binding.resolveEach config.allowUnresolved env bs) s
      (Binding.resolveEach config.allowUnresolved env bs) s')
    {visit : β → Bool → Frame → Eval σ (ForInStep β)}
    (hvisit : ∀ acc holds f, InStep R (visit acc holds f) (visit acc holds f)) (startsClear : Bool)
    (acc : β) :
    EndAlike R config (q.scan bs env p startsClear visit acc) s
      (q.scan bs env p' startsClear visit acc) s' := by
  rw [scan_eq, scan_eq, EndAlike, result_bind_of_ok (result_read ..),
    result_bind_of_ok (result_read ..)]
  refine hbs.bind fun values => InStep.bind ?_ fun _ => hR.scanList hp hvisit _ acc
  cases startsClear with
  | false => exact inStep_pure ()
  | true => exact hR.modifyCounterexample _

/-- **Quantifications over predicates in step** end alike from related sessions, if their domains
are worked out alike from these. -/
theorem evaluate (q : Quantifier) (hp : AskedInStep R p p')
    (hbs : EndAlike R config (Binding.resolveEach config.allowUnresolved env bs) s
      (Binding.resolveEach config.allowUnresolved env bs) s') (h : R s s') :
    EndAlike R config (q.evaluate bs p env) s (q.evaluate bs p' env) s' := by
  cases q with
  | universal =>
    refine (hR.scan hp hbs (hR.visitor .universal) true true).bind fun holds => ?_
    cases holds with
    | false => exact inStep_pure _
    | true => exact (hR.modifyCounterexample _).bind fun _ => inStep_pure _
  | existential =>
    exact hR.endAlike_restoring h (hR.scan hp hbs (hR.visitor .existential) false false)
  | unique =>
    have hcount : EndAlike R config
        (Quantifier.unique.scan bs env p false Quantifier.visitUnique 0) s
        (Quantifier.unique.scan bs env p' false Quantifier.visitUnique 0) s' :=
      hR.scan hp hbs (hR.visitor .unique) false Nat.zero
    rw [Quantifier.evaluate_unique_eq, Quantifier.evaluate_unique_eq]
    exact (hR.endAlike_restoring h hcount).bind fun count => inStep_pure (count == 1)

/-! ### Heads -/

/-- One turn of the loop in step: over the same combination, to the same answer. -/
lemma turn (hp : AskedInStep R p p') {ms ns : List Match} {acc acc' : Tally q}
    {t : Session σ} (h : R s s')
    (hturn : Turn config q env p q.visitor ⟨ms, acc, s⟩ ⟨ns, acc', t⟩) :
    ∃ t', Turn config q env p' q.visitor ⟨ms, acc, s'⟩ ⟨ns, acc', t'⟩ ∧ R t t' := by
  cases hturn with
  | passOver hlevel hm => exact ⟨s', .passOver (mt (hR.terminating_iff h).mpr hlevel) hm, h⟩
  | @ask _ _ f _ _ _ _ _ _ hlevel hm hask hvisit =>
    have hasks : EndAlike R config (q.ask env p f) s (q.ask env p' f) s' :=
      ask (hp _ config s s' h hlevel)
    obtain ⟨r, u, u', hu, hu', hR'⟩ := hasks
    obtain ⟨rfl, rfl⟩ := Prod.mk.inj (hu.symm.trans hask)
    obtain ⟨r, v, v', hv, hv', hR''⟩ := hR.visitor q _ _ _ config u u' hR'
    obtain ⟨rfl, rfl⟩ := Prod.mk.inj (hv.symm.trans hvisit)
    exact ⟨v', .ask (mt (hR.terminating_iff h).mpr hlevel) hm hu' hv', hR''⟩

/-- A quantification over a predicate in step comes to the same head: the same combinations are
still to come there, and the visitor has kept the same of the answers. -/
lemma comesTo (hp : AskedInStep R p p')
    (hbs : EndAlike R config (Binding.resolveEach config.allowUnresolved env bs) s
      (Binding.resolveEach config.allowUnresolved env bs) s') {head : Head σ (Tally q)}
    (hcomes : ComesTo config q bs p env s head) :
    ∃ t', ComesTo config q bs p' env s' ⟨head.rest, head.tally, t'⟩ ∧ R head.session t' := by
  obtain ⟨values, u, hu, hturns⟩ := hcomes
  obtain ⟨r, v, v', hv, hv', hR'⟩ := hbs
  obtain ⟨rfl, rfl⟩ := Prod.mk.inj (hv.symm.trans hu)
  have hfirst : R (if q.startsClear then v.forget else v)
      (if q.startsClear then v'.forget else v') := by
    cases q.startsClear with
    | false => exact hR'
    | true =>
      rw [if_pos rfl, if_pos rfl, Session.forget, Session.forget, hR.counterexample_eq hR']
      exact hR.withCounterexample hR' _
  induction hturns with
  | refl => exact ⟨_, ⟨values, v', hv', .refl⟩, hfirst⟩
  | tail _ hturn ih =>
    obtain ⟨t, ⟨values', u', hu', hturns'⟩, ht⟩ := ih
    obtain ⟨t', hturn', ht'⟩ := hR.turn hp ht hturn
    exact ⟨t', ⟨values', u', hu', hturns'.tail hturn'⟩, ht'⟩

/-- **Quantifications over predicates in step come to the same heads**, apart from the sessions. -/
theorem comesTo_iff (hp : AskedInStep R p p')
    (hbs : EndAlike R config (Binding.resolveEach config.allowUnresolved env bs) s
      (Binding.resolveEach config.allowUnresolved env bs) s') (ms : List Match) (acc : Tally q) :
    (∃ t, ComesTo config q bs p env s ⟨ms, acc, t⟩) ↔
      ∃ t', ComesTo config q bs p' env s' ⟨ms, acc, t'⟩ := by
  constructor
  · rintro ⟨t, hcomes⟩
    obtain ⟨t', hcomes', -⟩ := hR.comesTo hp hbs hcomes
    exact ⟨t', hcomes'⟩
  · rintro ⟨t', hcomes'⟩
    obtain ⟨t, hcomes, -⟩ := hR.flip.comesTo (hR.askedInStep_flip hp) hbs.flip hcomes'
    exact ⟨t, hcomes⟩

end Session.UnseenByScans

end BoundedLogic
