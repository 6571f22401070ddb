import BoundedLogic.Proofs.Checking.Substitution
import BoundedLogic.Proofs.Quantifier.LoopHeads

set_option relaxedAutoImplicit false
set_option autoImplicit false

/-!
# The way of a failure

A failure is met somewhere deep inside: in a predicate, in a domain, or in a scan that is cut off.
From there it goes out through the scans and bindings around it. Scans pass it on as it is. Each
binding whose domain was being worked out adds its text, unless the failure is a request to stop,
which is passed on as one. So the checker that started all this can tell a request to stop from
anything else, and sees for the rest which bindings the failure went through.

## Main definitions

* `BoundedLogic.Eval.RunsWithin` — an evaluation is run in the course of another one, inside of
  bindings of given texts.

## Main results

* `BoundedLogic.Eval.RunsWithin.fst_result_eq_error` — how the failure of an evaluation arrives at
  the one in the course of which it is run.
* `BoundedLogic.Quantification.failure_keeps_its_kind` — a request to stop arrives as one, any other
  failure arrives as it is, with the texts of the bindings on its way, and so each is reported.
-/

namespace BoundedLogic

variable {σ : Type}

/-! ### Failures reported for bindings -/

namespace EvalError

/-- A failure met inside of bindings is a request to stop exactly if it was one at first. -/
@[simp] lemma isCancelled_inBinding (text : String) (e : EvalError) :
    (e.inBinding text).isCancelled = e.isCancelled := by
  cases he : e.isCancelled <;> simp [inBinding, he, isCancelled]

/-- The same for any number of bindings, the outermost one first. -/
lemma isCancelled_foldr_inBinding (texts : List String) (e : EvalError) :
    (texts.foldr inBinding e).isCancelled = e.isCancelled := by
  induction texts with
  | nil => rfl
  | cons text texts ih => rw [List.foldr_cons, isCancelled_inBinding, ih]

/-- A failure that is no request to stop gets the text of every binding. -/
lemma foldr_inBinding_of_not_isCancelled {e : EvalError} (he : e.isCancelled = false)
    (texts : List String) : texts.foldr inBinding e = texts.foldr binding e := by
  induction texts with
  | nil => rfl
  | cons text texts ih =>
    have hsame : (texts.foldr binding e).isCancelled = false := by
      rw [← ih, isCancelled_foldr_inBinding, he]
    rw [List.foldr_cons, List.foldr_cons, ih, inBinding, hsame, if_neg Bool.false_ne_true]

/-- The message of a failure of a binding shows the text of the binding before that of the cause. -/
lemma message_binding (text : String) (e : EvalError) :
    (binding text e).message = "cannot initialize binding `" ++ text ++ "`: " ++ e.message := rfl

/-- The message shows the texts of all bindings, the outermost one first. -/
lemma message_foldr_binding (texts : List String) (e : EvalError) :
    (texts.foldr binding e).message =
      texts.foldr (fun text inner => "cannot initialize binding `" ++ text ++ "`: " ++ inner)
        e.message := by
  induction texts with
  | nil => rfl
  | cons text texts ih => rw [List.foldr_cons, List.foldr_cons, message_binding, ih]

end EvalError

/-- The first of several bindings whose domain cannot be worked out decides how they fail. -/
lemma Binding.result_resolveEach_of_error {before after : List (Binding σ)} {b : Binding σ}
    {lenient : Bool} {env : Context} {config : EngineConfig} {s t u : Session σ}
    {values : List (List Value)} {cause : EvalError} (hb : b.patterns ≠ [])
    (hbefore : (resolveEach lenient env before).result config s = (.ok values, t))
    (hcause : (b.resolveValues lenient env).result config t = (.error cause, u)) :
    (resolveEach lenient env (before ++ b :: after)).result config s =
      (.error (cause.inBinding b.text), u) := by
  induction before generalizing s values with
  | nil =>
    obtain ⟨-, rfl⟩ : [] = values ∧ s = t := by simpa [resolveEach] using hbefore
    exact Eval.result_bind_of_error ((result_draw_eq_error_iff hb).mpr ⟨cause, hcause, rfl⟩)
  | cons b' before ih =>
    rw [resolveEach, Eval.result_bind_eq_ok_iff] at hbefore
    obtain ⟨vs, v, hdraw, hrest⟩ := hbefore
    obtain ⟨rest, w, hbefore, hpure⟩ := Eval.result_bind_eq_ok_iff.mp hrest
    obtain ⟨-, rfl⟩ : vs :: rest = values ∧ w = t := by simpa using hpure
    rw [List.cons_append, resolveEach, Eval.result_bind_of_ok hdraw]
    exact Eval.result_bind_of_error (ih hbefore)

/-! ### One evaluation inside of another -/

namespace Eval

variable {α β γ : Type} {config : EngineConfig} {s u : Session σ}

/-- An evaluation has failed if it has left some session so. -/
lemma fst_result_eq_iff {x : Eval σ α} {r : Except EvalError α} :
    (x.result config s).1 = r ↔ ∃ t, x.result config s = (r, t) := by
  constructor
  · rintro rfl
    exact ⟨_, rfl⟩
  · rintro ⟨t, h⟩
    rw [h]

/-- Nothing runs after a failure, whatever session that left. -/
lemma fst_result_bind_of_error {x : Eval σ α} {f : α → Eval σ β} {e : EvalError}
    (h : (x.result config s).1 = .error e) : ((x >>= f).result config s).1 = .error e := by
  obtain ⟨t, h⟩ := fst_result_eq_iff.mp h
  rw [result_bind_of_error h]

/-- The failure of the second evaluation, from its session, is that of the first one. -/
def PassesOn (config : EngineConfig) (x : Eval σ α) (s : Session σ) (y : Eval σ β)
    (u : Session σ) : Prop :=
  ∀ e, (y.result config u).1 = .error e → (x.result config s).1 = .error e

/-- The evaluation `y` is run from the session `u` in the course of another one, run from another
session. The listed texts are those of the bindings that are being worked out meanwhile, the
outermost one first. What the host runs in its predicates and computed domains is its own business,
except that it has to pass on their failures. -/
inductive RunsWithin (config : EngineConfig) (y : Eval σ γ) (u : Session σ) :
    {α : Type} → Eval σ α → Session σ → List String → Prop
  /-- The other evaluation is the same. -/
  | here : RunsWithin config y u y u []
  /-- A predicate of the host runs something. -/
  | host {δ : Type} {run : Context → Eval σ Value} {env : Context} {s v : Session σ}
      {z : Eval σ δ} {texts : List String}
      (hpass : PassesOn config ((Predicate.host run).evaluate env) s z v)
      (hrest : RunsWithin config y u z v texts) :
      RunsWithin config y u ((Predicate.host run).evaluate env) s texts
  /-- The host runs a part of a predicate that it evaluates from its parts. -/
  | part {parts : List (Predicate σ)}
      {run : List (Context → Eval σ Value) → Context → Eval σ Value} {p : Predicate σ}
      {env env' : Context} {s v : Session σ} {texts : List String} (hp : p ∈ parts)
      (hpass : PassesOn config ((Predicate.compound parts run).evaluate env) s (p.evaluate env') v)
      (hrest : RunsWithin config y u (p.evaluate env') v texts) :
      RunsWithin config y u ((Predicate.compound parts run).evaluate env) s texts
  /-- A shared predicate is evaluated. -/
  | shared {p : Predicate σ} {env : Context} {s : Session σ} {texts : List String}
      (hrest : RunsWithin config y u (p.evaluate env) s texts) :
      RunsWithin config y u ((Predicate.shared p).evaluate env) s texts
  /-- A quantification is evaluated as a predicate. -/
  | quantified {q : Quantifier} {bs : List (Binding σ)} {body : Predicate σ} {env : Context}
      {s : Session σ} {texts : List String}
      (hrest : RunsWithin config y u (q.evaluate bs body.evaluate env) s texts) :
      RunsWithin config y u ((Predicate.quantified q bs body).evaluate env) s texts
  /-- A quantification asks its predicate on the next combination. -/
  | asked {q : Quantifier} {bs : List (Binding σ)} {body : Predicate σ} {env : Context}
      {s v : Session σ} {m : Match} {ms : List Match} {acc : q.Tally} {f : Frame}
      {texts : List String} (hcomes : q.ComesTo config bs body.evaluate env s ⟨m :: ms, acc, v⟩)
      (hlevel : v.interrupter.level ≠ .terminating) (hm : m.toFrame? = some f)
      (hrest : RunsWithin config y u (body.evaluate (env.extend q.keyword f)) v texts) :
      RunsWithin config y u (q.evaluate bs body.evaluate env) s texts
  /-- A quantification works out one of its bindings, after those before it. -/
  | binding {q : Quantifier} (before : List (Binding σ)) {b : Binding σ}
      {after : List (Binding σ)} {body : Predicate σ} {env : Context} {s v : Session σ}
      {values : List (List Value)} {texts : List String} (hb : b.patterns ≠ [])
      (hbefore : (Binding.resolveEach config.allowUnresolved env before).result config s =
        (.ok values, v))
      (hrest : RunsWithin config y u (b.resolveValues config.allowUnresolved env) v texts) :
      RunsWithin config y u (q.evaluate (before ++ b :: after) body.evaluate env) s
        (b.text :: texts)
  /-- A binding works out its domain. -/
  | domain {b : Binding σ} {lenient : Bool} {env : Context} {s : Session σ}
      {texts : List String} (hb : b.overridden = none)
      (hrest : RunsWithin config y u (b.domain.resolve lenient env) s texts) :
      RunsWithin config y u (b.resolveValues lenient env) s texts
  /-- A set of subsets works out its domain. -/
  | power {d : Domain σ} {lenient : Bool} {env : Context} {s : Session σ} {texts : List String}
      (hrest : RunsWithin config y u (d.resolve lenient env) s texts) :
      RunsWithin config y u ((Domain.power d).resolve lenient env) s texts
  /-- A set of keys works out its domain. -/
  | dom {d : Domain σ} {lenient : Bool} {env : Context} {s : Session σ} {texts : List String}
      (hrest : RunsWithin config y u (d.resolve lenient env) s texts) :
      RunsWithin config y u ((Domain.dom d).resolve lenient env) s texts
  /-- A set of values works out its domain. -/
  | rng {d : Domain σ} {lenient : Bool} {env : Context} {s : Session σ} {texts : List String}
      (hrest : RunsWithin config y u (d.resolve lenient env) s texts) :
      RunsWithin config y u ((Domain.rng d).resolve lenient env) s texts
  /-- The host runs something for a domain that it computes. -/
  | computed {δ : Type} {label : String} {run : Context → Eval σ Value} {lenient : Bool}
      {env : Context} {s v : Session σ} {z : Eval σ δ} {texts : List String}
      (hpass : PassesOn config (run env) s z v) (hrest : RunsWithin config y u z v texts) :
      RunsWithin config y u ((Domain.computed label run).resolve lenient env) s texts

/-- **The way of a failure.** It arrives with the texts of the bindings it was met inside of, the
innermost one added first, unless it is a request to stop.

**Proof sketch.** Induction on the way. A scan that asks its predicate fails as the predicate does
(`Quantifier.result_evaluate_of_failsAt`), and one that works out its bindings as the first of these
that fails. All other evaluations around pass the failure on. -/
theorem RunsWithin.fst_result_eq_error {x : Eval σ α} {y : Eval σ γ} {texts : List String}
    {e : EvalError} (h : RunsWithin config y u x s texts)
    (hraised : (y.result config u).1 = .error e) :
    (x.result config s).1 = .error (texts.foldr EvalError.inBinding e) := by
  induction h with
  | here => exact hraised
  | host hpass _ ih => exact hpass _ ih
  | part _ hpass _ ih => exact hpass _ ih
  | shared _ ih => exact ih
  | quantified _ ih => exact fst_result_bind_of_error ih
  | asked hcomes hlevel hm _ ih =>
    obtain ⟨t, ht⟩ := fst_result_eq_iff.mp ih
    exact fst_result_eq_iff.mpr ⟨t, Quantifier.result_evaluate_of_failsAt hcomes
      (.ask hlevel hm (result_bind_of_error ht))⟩
  | binding _ hb hbefore _ ih =>
    obtain ⟨t, ht⟩ := fst_result_eq_iff.mp ih
    exact fst_result_eq_iff.mpr ⟨t, Quantifier.result_evaluate_eq_error_iff.mpr
      (.inl (Binding.result_resolveEach_of_error hb hbefore ht))⟩
  | domain hb _ ih =>
    rw [Binding.resolveValues, hb]
    exact fst_result_bind_of_error ih
  | power _ ih => exact fst_result_bind_of_error ih
  | dom _ ih => exact fst_result_bind_of_error ih
  | rng _ ih => exact fst_result_bind_of_error ih
  | computed hpass _ ih => exact fst_result_bind_of_error (hpass _ ih)

end Eval

/-! ### What is reported -/

namespace Checker

/-- What a check of an obligation evaluates: its claim with the ranges in place, among the global
values, in a session in which no frame is recorded yet. -/
structure Evaluates (c : Checker) (o : Obligation σ) (opening : Session σ) (q : Quantification σ)
    (env : Context) (config : EngineConfig) (s : Session σ) : Prop where
  /-- The obligation is evaluated at all. -/
  isCheckable : o.isCheckable = true
  /-- The claim, with the ranges in place. -/
  claim_eq : (o.mapBindings c.applyRange).claim = q
  /-- The global values. -/
  env_eq : .withFrame "global" c.globals = env
  /-- The settings. -/
  config_eq : c.config.engine = config
  /-- The session. -/
  session_eq : beginning opening = s

/-- A check in which the evaluation fails reports the failure, as an interruption if it is a request
to stop and as an error otherwise. -/
lemma Evaluates.outcome_of_error {c : Checker} {o : Obligation σ} {opening s : Session σ}
    {q : Quantification σ} {env : Context} {config : EngineConfig}
    (h : c.Evaluates o opening q env config s) {e : EvalError}
    (herror : ((q.evaluate env).result config s).1 = .error e) :
    ((c.check o).run opening).1.1.outcome =
      if e.isCancelled then .interrupted else .error e.message := by
  obtain ⟨ho, rfl, rfl, rfl, rfl⟩ := h
  obtain ⟨t, ht⟩ := Eval.fst_result_eq_iff.mp herror
  rw [run_check_of_isCheckable c ho ht]
  rfl

end Checker

namespace Quantification

/-- **A failure keeps its kind.** Let some evaluation in the course of that of a quantification
fail, at any depth of scans, bindings and computed domains. If that is a request to stop, then the
quantification fails with a request to stop, and a check that evaluates it reports an interruption.
If it is any other failure, then the quantification fails with it, reported once for each binding on
its way, the innermost one first, and a check reports an error with the message of that. So no check
reports that the obligation passed or failed.

**Proof sketch.** On its way the failure is reported for the bindings as said
(`Eval.RunsWithin.fst_result_eq_error`), which neither makes nor hides a request to stop
(`EvalError.isCancelled_foldr_inBinding`). -/
theorem failure_keeps_its_kind {γ : Type} {q : Quantification σ} {env : Context}
    {config : EngineConfig} {s u : Session σ} {y : Eval σ γ} {texts : List String} {e : EvalError}
    (hwithin : Eval.RunsWithin config y u (q.evaluate env) s texts)
    (hraised : (y.result config u).1 = .error e) :
    (e.isCancelled = true →
      (∃ e', ((q.evaluate env).result config s).1 = .error e' ∧ e'.isCancelled = true) ∧
      ∀ (c : Checker) (o : Obligation σ) (opening : Session σ),
        c.Evaluates o opening q env config s →
          ((c.check o).run opening).1.1.outcome = .interrupted) ∧
    (e.isCancelled = false →
      ((q.evaluate env).result config s).1 = .error (texts.foldr .binding e) ∧
      (texts.foldr EvalError.binding e).isCancelled = false ∧
      ∀ (c : Checker) (o : Obligation σ) (opening : Session σ),
        c.Evaluates o opening q env config s →
          ((c.check o).run opening).1.1.outcome = .error (texts.foldr (fun text inner =>
            "cannot initialize binding `" ++ text ++ "`: " ++ inner) e.message)) := by
  have herror := hwithin.fst_result_eq_error hraised
  have hkind := EvalError.isCancelled_foldr_inBinding texts e
  constructor
  · intro he
    rw [he] at hkind
    refine ⟨⟨_, herror, hkind⟩, fun c o opening hevaluates => ?_⟩
    rw [hevaluates.outcome_of_error herror, if_pos hkind]
  · intro he
    rw [he] at hkind
    rw [EvalError.foldr_inBinding_of_not_isCancelled he] at herror hkind
    refine ⟨herror, hkind, fun c o opening hevaluates => ?_⟩
    rw [hevaluates.outcome_of_error herror, if_neg (by rw [hkind]; exact Bool.false_ne_true),
      EvalError.message_foldr_binding]

end Quantification

namespace Obligation

/-- The binding of a name to the elements of a set the host computes. -/
def overComputed (name label : String) (run : Context → Eval Unit Value) : Binding Unit where
  patterns := [.name name]
  kind := .inSet
  domain := .computed label run

/-- The quantification `exists y in set g & true`, where the host fails to compute `g`. -/
def someYInG (e : EvalError) (env : Context) : Eval Unit Bool :=
  Quantifier.existential.evaluate [overComputed "y" "g" fun _ => throw e]
    (Predicate.host fun _ => pure (.bool true)).evaluate env

/-- The obligation `forall x in set f & true`, where the host computes `f` from the answer of
`exists y in set g & true`. -/
def allXInF (e : EvalError) : Obligation Unit where
  number := 1
  kind := "total"
  claim :=
    { quantifier := .universal
      bindings := [overComputed "x" "f" fun env => do
        let holds ← someYInG e env
        pure (.set [.bool holds])]
      body := .host fun _ => pure (.bool true) }

/-- The failure to compute `g` is met inside of both bindings. -/
lemma runsWithin_allXInF (e : EvalError) (env : Context) (s : Session Unit) :
    Eval.RunsWithin {} (throw e : Eval Unit Value) s ((allXInF e).claim.evaluate env) s
      ["x in set f", "y in set g"] := by
  have hinner : Eval.RunsWithin {} (throw e : Eval Unit Value) s (someYInG e env) s ["y in set g"] :=
    .binding [] (List.cons_ne_nil _ _) rfl (.domain rfl (.computed (fun _ h => h) .here))
  exact .binding [] (List.cons_ne_nil _ _) rfl (.domain rfl
    (.computed (fun _ h => Eval.fst_result_bind_of_error h) hinner))

end Obligation

/-- A request to stop met while `g` is computed makes an interruption, any other failure an error
with the texts of both bindings. -/
theorem Quantification.failure_keeps_its_kind_allXInF :
    (∀ e, Eval.RunsWithin {} (throw e : Eval Unit Value) (.running [])
      ((Obligation.allXInF e).claim.evaluate (.withFrame "global" .empty)) (.running [])
      ["x in set f", "y in set g"]) ∧
    (({} : Checker).check (Obligation.allXInF .cancelled) |>.run (.running [])).1.1.outcome =
      .interrupted ∧
    (({} : Checker).check (Obligation.allXInF (.predicate "no value")) |>.run
      (.running [])).1.1.outcome =
        .error ("cannot initialize binding `x in set f`: " ++
          ("cannot initialize binding `y in set g`: " ++ "no value")) := by
  have hwithin := fun e => Obligation.runsWithin_allXInF e (.withFrame "global" .empty)
    (.running [])
  have hevaluates : ∀ e, ({} : Checker).Evaluates (Obligation.allXInF e) (.running [])
      (Obligation.allXInF e).claim (.withFrame "global" .empty) {} (.running []) :=
    fun e => ⟨rfl, rfl, rfl, rfl, rfl⟩
  have hcancelled := failure_keeps_its_kind (hwithin .cancelled) rfl
  have hother := failure_keeps_its_kind (hwithin (.predicate "no value")) rfl
  exact ⟨hwithin, (hcancelled.1 rfl).2 _ _ _ (hevaluates _),
    (hother.2 rfl).2.2 _ _ _ (hevaluates _)⟩

end BoundedLogic
