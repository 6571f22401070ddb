import BoundedLogic.Proofs.Evaluation.InStep

set_option relaxedAutoImplicit false
set_option autoImplicit false

/-!
# Scans and the interrupter

Commands can be sent while a predicate is evaluated or a domain worked out, at any depth of nested
quantifications. A scan looks at the level at every head of its loop. It asks its predicate under no
terminate, and a terminate that stands when a combination is still to come ends the scan, and with
it all quantifications around it. A pause is nothing to a scan.

That no predicate is asked under a terminate is said with an alarm: if every predicate in a nest of
quantifications is replaced by the alarm wherever it would be asked under a terminate, then no
evaluation changes, whatever the alarm does.

## Main definitions

* `BoundedLogic.Predicate.guarded` — a predicate that raises an alarm when a quantification in it
  asks under a terminate.
* `BoundedLogic.Predicate.CutOffAt` — a scan in a nest of quantifications comes to the head of its
  loop under a terminate, with a combination still to come.
* `BoundedLogic.Session.AlikeButForPause` — sessions one of which may be paused.

## Main results

* `BoundedLogic.Predicate.evaluate_guarded` — no predicate is asked under a terminate.
* `BoundedLogic.Predicate.result_evaluate_of_cutOffAt` — a scan that is cut off ends all
  quantifications around it.
* `BoundedLogic.Predicate.scans_heed_terminate_only` — both, and that scans heed nothing else.
-/

namespace BoundedLogic

variable {σ : Type}

/-! ### Asking under a terminate -/

namespace Eval

variable {α : Type}

/-- The evaluation, or the alarm in its place if a terminate has been sent. -/
def unlessTerminating (alarm x : Eval σ α) : Eval σ α := do
  if ← terminateRequested then alarm else x

/-- Without a terminate there is no alarm. -/
lemma result_unlessTerminating {s : Session σ} (hlevel : s.interrupter.level ≠ .terminating)
    (alarm x : Eval σ α) (config : EngineConfig) :
    (unlessTerminating alarm x).result config s = x.result config s := by
  rw [unlessTerminating, result_bind_of_ok (result_terminateRequested ..),
    Quantifier.terminateRequested_eq_false_iff.mpr hlevel, if_neg Bool.false_ne_true]

end Eval

namespace Quantifier

variable {p p' : Context → Eval σ Value}

/-- The predicates evaluate alike wherever no terminate has been sent. -/
def AgreeUnlessTerminating (p p' : Context → Eval σ Value) : Prop :=
  ∀ c config (s : Session σ), s.interrupter.level ≠ .terminating →
    (p c).result config s = (p' c).result config s

/-- Such predicates can stand for each other in a quantification. -/
lemma evaluate_congr_of_agree (h : AgreeUnlessTerminating p p') (q : Quantifier)
    (bs : List (Binding σ)) (env : Context) : q.evaluate bs p env = q.evaluate bs p' env :=
  evaluate_congr_of_alike fun _ _ _ _ _ f _ config s hgo =>
    h (env.extend q.keyword f) config s (terminateRequested_eq_false_iff.mp hgo)

end Quantifier

namespace Predicate

mutual

/-- The predicate, with `alarm` in place of whatever a quantification in it would ask under a
terminate. -/
def guarded (alarm : Context → Eval σ Value) : Predicate σ → Predicate σ
  | .host run => .host run
  | .quantified q bs body =>
    .quantified q bs
      (.host fun c => Eval.unlessTerminating (alarm c) ((body.guarded alarm).evaluate c))
  | .compound parts run => .compound (listGuarded alarm parts) run
  | .shared p => .shared (p.guarded alarm)

/-- The same for a list of predicates. -/
def listGuarded (alarm : Context → Eval σ Value) : List (Predicate σ) → List (Predicate σ)
  | [] => []
  | p :: ps => p.guarded alarm :: listGuarded alarm ps

end

mutual

/-- **No predicate is asked under a terminate**, at any depth: an alarm that would be raised there
makes no difference.

**Proof sketch.** Induction on the predicate. What a quantification asks and what it asks with the
alarm in place agree without a terminate, and then they can stand for each other. -/
theorem evaluate_guarded (alarm : Context → Eval σ Value) :
    ∀ p : Predicate σ, (p.guarded alarm).evaluate = p.evaluate
  | .host _ => rfl
  | .quantified q bs body => by
    have hagree : Quantifier.AgreeUnlessTerminating
        (fun c => Eval.unlessTerminating (alarm c) ((body.guarded alarm).evaluate c))
        body.evaluate := by
      intro c config s hlevel
      rw [Eval.result_unlessTerminating hlevel, evaluate_guarded alarm body]
    funext env
    simp only [guarded, evaluate, Quantifier.evaluate_congr_of_agree hagree]
  | .compound _ run => congrArg run (evaluations_listGuarded alarm _)
  | .shared p => evaluate_guarded alarm p

/-- The same for a list of predicates. -/
lemma evaluations_listGuarded (alarm : Context → Eval σ Value) :
    ∀ ps : List (Predicate σ), evaluations (listGuarded alarm ps) = evaluations ps
  | [] => rfl
  | p :: ps => congrArg₂ List.cons (evaluate_guarded alarm p) (evaluations_listGuarded alarm ps)

end

/-! ### Cut off by a terminate -/

variable {config : EngineConfig} {s t u : Session σ}

/-- A quantification as a predicate fails as the quantification does. -/
lemma result_evaluate_quantified_of_error {q : Quantifier} {bs : List (Binding σ)}
    {body : Predicate σ} {env : Context} {e : EvalError}
    (h : (q.evaluate bs body.evaluate env).result config s = (.error e, t)) :
    ((Predicate.quantified q bs body).evaluate env).result config s = (.error e, t) :=
  Eval.result_bind_of_error h

/-- While the predicate is evaluated a scan comes to the head of its loop under a terminate, with a
combination still to come, consistent or not. It is the scan of the predicate itself, or that of a
quantification that is asked directly, at any depth. The second session is the one at that head. -/
inductive CutOffAt (config : EngineConfig) :
    Predicate σ → Context → Session σ → Session σ → Prop
  | here {q : Quantifier} {bs : List (Binding σ)} {body : Predicate σ} {env : Context}
      {s u : Session σ} {m : Match} {ms : List Match} {acc : q.Tally}
      (hcomes : q.ComesTo config bs body.evaluate env s ⟨m :: ms, acc, u⟩)
      (hlevel : u.interrupter.level = .terminating) :
      CutOffAt config (.quantified q bs body) env s u
  | inside {q : Quantifier} {bs : List (Binding σ)} {body : Predicate σ} {env : Context}
      {s t u : Session σ} {m : Match} {ms : List Match} {acc : q.Tally} {f : Frame}
      (hcomes : q.ComesTo config bs body.evaluate env s ⟨m :: ms, acc, t⟩)
      (hlevel : t.interrupter.level ≠ .terminating) (hm : m.toFrame? = some f)
      (hcut : CutOffAt config body (env.extend q.keyword f) t u) :
      CutOffAt config (.quantified q bs body) env s u
  | shared {p : Predicate σ} {env : Context} {s u : Session σ} (hcut : CutOffAt config p env s u) :
      CutOffAt config (.shared p) env s u

/-- **A scan that is cut off** ends all quantifications around it as cancelled, and nothing is done
any more in the session.

**Proof sketch.** Induction on the depth of the scan. One that is cut off itself fails at the head
where that happens; one around it fails at the head where it asks the quantification inside. -/
theorem result_evaluate_of_cutOffAt {p : Predicate σ} {env : Context}
    (h : CutOffAt config p env s u) :
    (p.evaluate env).result config s = (.error .cancelled, u) := by
  induction h with
  | here hcomes hlevel =>
    exact result_evaluate_quantified_of_error
      (Quantifier.result_evaluate_of_failsAt hcomes (.terminate hlevel))
  | inside hcomes hlevel hm _ ih =>
    exact result_evaluate_quantified_of_error
      (Quantifier.result_evaluate_of_failsAt hcomes (.ask hlevel hm (Eval.result_bind_of_error ih)))
  | shared _ ih => exact ih

end Predicate

/-! ### Pauses -/

/-- The sessions differ at most in the log of events, and in that one of them may be paused where
the other one is running. -/
structure Session.AlikeButForPause (s s' : Session σ) : Prop where
  /-- A terminate has been sent in both, or in none. -/
  terminating_iff : s.interrupter.level = .terminating ↔ s'.interrupter.level = .terminating
  /-- The controller has the same replies left: none was used up by a wait. -/
  replies_eq : s.interrupter.replies = s'.interrupter.replies
  /-- The same frames are recorded. -/
  counterexample_eq : s.counterexample = s'.counterexample
  /-- The state of the host is the same. -/
  host_eq : s.host = s'.host
  /-- If the first counterexample has been withdrawn, it holds the same. -/
  withdrawn_eq : s.withdrawn = s'.withdrawn

/-- No scan sees whether it is paused. -/
lemma Session.unseenByScans_alikeButForPause : UnseenByScans (@AlikeButForPause σ) where
  terminating_iff h := h.terminating_iff
  counterexample_eq h := h.counterexample_eq
  withCounterexample h _ := ⟨h.terminating_iff, h.replies_eq, rfl, h.host_eq, h.withdrawn_eq⟩

namespace Predicate

/-- **Scans heed a terminate, and nothing else.** In the evaluation of a quantification, whatever is
sent by its predicate and its domains while they are evaluated:

* no predicate is asked under a terminate, at any depth;
* a scan, at any depth, that comes to the head of its loop under a terminate and with a combination
  still to come is cut off there, and all quantifications around it end with it;
* the quantification fails only if a domain or a predicate does, or if its own scan is at the head
  of its loop under a terminate, with a combination still to come;
* a pause makes no difference. Paused or not, and with a predicate that is for the rest the same but
  may pause and resume, the scan comes to the same heads and ends in the same way, with no wait,
  once its domains have been worked out alike.

**Proof sketch.** The parts are `evaluate_guarded`, `result_evaluate_of_cutOffAt`,
`Quantifier.result_evaluate_eq_error_iff`, and what holds of all differences that no scan sees. -/
theorem scans_heed_terminate_only (q : Quantifier) (bs : List (Binding σ)) (body : Predicate σ)
    (env : Context) (config : EngineConfig) (s : Session σ) :
    (∀ alarm : Context → Eval σ Value,
      ((Predicate.quantified q bs body).guarded alarm).evaluate =
        (Predicate.quantified q bs body).evaluate) ∧
    (∀ u, CutOffAt config (.quantified q bs body) env s u →
      ((Predicate.quantified q bs body).evaluate env).result config s = (.error .cancelled, u)) ∧
    (∀ e t, (q.evaluate bs body.evaluate env).result config s = (.error e, t) ↔
      (Binding.resolveEach config.allowUnresolved env bs).result config s = (.error e, t) ∨
        ∃ h, q.ComesTo config bs body.evaluate env s h ∧
          Quantifier.FailsAt config q env body.evaluate h e t) ∧
    ∀ p', Quantifier.AskedInStep Session.AlikeButForPause body.evaluate p' →
      ∀ s', s.AlikeButForPause s' →
        Eval.EndAlike Session.AlikeButForPause config
          (Binding.resolveEach config.allowUnresolved env bs) s
          (Binding.resolveEach config.allowUnresolved env bs) s' →
        Eval.EndAlike Session.AlikeButForPause config (q.evaluate bs body.evaluate env) s
          (q.evaluate bs p' env) s' ∧
        ∀ ms acc, (∃ t, q.ComesTo config bs body.evaluate env s ⟨ms, acc, t⟩) ↔
          ∃ t', q.ComesTo config bs p' env s' ⟨ms, acc, t'⟩ := by
  refine ⟨fun alarm => evaluate_guarded alarm _, fun u => result_evaluate_of_cutOffAt,
    fun e t => Quantifier.result_evaluate_eq_error_iff, fun p' hp s' h hbs => ⟨?_, ?_⟩⟩
  · exact Session.unseenByScans_alikeButForPause.evaluate q hp hbs h
  · exact Session.unseenByScans_alikeButForPause.comesTo_iff hp hbs

/-- A predicate that is false, after the command was sent. -/
def falseAfter (c : Command) : Predicate Unit :=
  .host fun _ => do
    Eval.send c
    pure (.bool false)

/-- The quantification `forall x in set {1, 2} & exists y in set {1, 2} & false`, where a terminate
is sent before each `false`. -/
def terminatingXY : Predicate Unit :=
  .quantified .universal [.overIntegers ["x"] [1, 2]]
    (.quantified .existential [.overIntegers ["y"] [1, 2]] (falseAfter .terminate))

/-- The binding `ys in set power {1}`. -/
def subsetsOfOne : Binding Unit where
  patterns := [.name "ys"]
  kind := .inSet
  domain := .power (.value (.set [.int 1]))

/-- The terminate sent for `x = 1` and `y = 1` ends both quantifications before `y = 2`. Sending a
pause does not change how `exists ys in set power {1} & false` ends, though subsets would wait for
one. -/
theorem scans_heed_terminate_only_terminatingXY :
    CutOffAt {} terminatingXY .root (.running [])
      { Session.running [] with interrupter := ({} : Interrupter).send .terminate } ∧
    (terminatingXY.evaluate .root).result {} (.running []) =
      (.error .cancelled,
        { Session.running [] with interrupter := ({} : Interrupter).send .terminate }) ∧
    (terminatingXY.guarded fun _ => throw .exhausted).evaluate = terminatingXY.evaluate ∧
    Eval.EndAlike Session.AlikeButForPause {}
      (Quantifier.existential.evaluate [subsetsOfOne]
        (Predicate.host fun _ => pure (.bool false)).evaluate .root) (.running [])
      (Quantifier.existential.evaluate [subsetsOfOne] (falseAfter .pause).evaluate .root)
      (.running []) := by
  have hinner : CutOffAt {} (.quantified .existential [.overIntegers ["y"] [1, 2]]
      (falseAfter .terminate)) (Context.root.extend "forall" ⟨[("x", .int 1)]⟩) (.running [])
      { Session.running [] with interrupter := ({} : Interrupter).send .terminate } :=
    .here ⟨[[.int 1, .int 2]], .running [], rfl, .single (.ask (by decide) rfl rfl rfl)⟩ rfl
  have hcut : CutOffAt {} terminatingXY .root (.running [])
      { Session.running [] with interrupter := ({} : Interrupter).send .terminate } :=
    .inside ⟨[[.int 1, .int 2]], .running [], rfl, .refl⟩ (by decide) rfl hinner
  have hforall := scans_heed_terminate_only .universal [.overIntegers ["x"] [1, 2]]
    (.quantified .existential [.overIntegers ["y"] [1, 2]] (falseAfter .terminate)) .root {}
    (.running [])
  have hpause := (scans_heed_terminate_only .existential [subsetsOfOne]
    (.host fun _ => pure (.bool false)) .root {} (.running [])).2.2.2 (falseAfter .pause).evaluate
  have hsame : (Session.running []).AlikeButForPause (Session.running []) :=
    ⟨.rfl, rfl, rfl, rfl, rfl⟩
  refine ⟨hcut, hforall.2.1 _ hcut, hforall.1 _, (hpause ?_ _ hsame ?_).1⟩
  · intro c config s s' h hlevel
    exact ⟨_, _, _, rfl, rfl, iff_of_false hlevel nofun, h.replies_eq, h.counterexample_eq,
      h.host_eq, h.withdrawn_eq⟩
  · exact ⟨.ok [[.set [], .set [.int 1]]], _, _, rfl, rfl, hsame⟩

end Predicate

end BoundedLogic
