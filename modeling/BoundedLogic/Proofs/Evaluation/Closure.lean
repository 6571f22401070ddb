import BoundedLogic.Evaluation.Predicate
import BoundedLogic.Proofs.Enumeration.Questions
import BoundedLogic.Proofs.Quantifier.Scan

set_option relaxedAutoImplicit false
set_option autoImplicit false

/-!
# Properties that the engine keeps

The engine evaluates quantifications by a few primitive evaluations of its own, which it puts
together with those of the host. Suppose that a property holds of the primitive ones and is passed
on wherever evaluations are put together. If the host's evaluations in a predicate have it, then so
has the evaluation of the predicate, at any depth: the engine adds nothing that could break it.

## Main definitions

* `BoundedLogic.Eval.rethrow`, `BoundedLogic.Eval.restoring` — the ways in which the engine puts
  evaluations together, beside sequences of them.
* `BoundedLogic.Eval.KeptByDrawing`, `BoundedLogic.Eval.KeptByScanning`,
  `BoundedLogic.Eval.KeptByEngine` — properties that are kept.
* `BoundedLogic.Eval.AlikeUnder` — evaluations for which it makes no difference which of two
  configurations they read.
* `BoundedLogic.Eval.LeadsTo`, `BoundedLogic.Eval.IsPassage` — what an evaluation does to the
  session, and relations between sessions before and after.
* `BoundedLogic.Domain.HostSatisfies`, `BoundedLogic.Predicate.HostSatisfies` — the property holds
  of what the host evaluates for a domain or a predicate.

## Main results

* `BoundedLogic.Eval.KeptByDrawing.resolveEach`, `BoundedLogic.Eval.KeptByEngine.quantifier`,
  `BoundedLogic.Eval.KeptByEngine.predicate` — it then holds of the evaluation of bindings,
  quantifications and predicates.
* `BoundedLogic.Eval.keptByDrawing_alikeUnder`, `BoundedLogic.Eval.keptByEngine_leadsTo` — what does
  not depend on a part of the configuration, and what is done to the session, as such properties.
-/

namespace BoundedLogic

variable {σ : Type}

namespace Eval

variable {α : Type}

/-! ### Putting evaluations together -/

/-- An evaluation with a failure reported in another way. -/
def rethrow (report : EvalError → EvalError) (x : Eval σ α) : Eval σ α := do
  match ← x.attempt with
  | .ok a => pure a
  | .error e => throw (report e)

/-- An evaluation that, if it succeeds, is followed by cutting the recorded frames back to as many
as there were before. -/
def restoring (x : Eval σ α) : Eval σ α := do
  let mark ← counterexampleSize
  let a ← x
  truncateCounterexample mark
  pure a

/-- Reporting failures in another way does not change what succeeds. -/
lemma result_rethrow_eq_ok_iff {report : EvalError → EvalError} {x : Eval σ α}
    {config : EngineConfig} {s t : Session σ} {a : α} :
    (x.rethrow report).result config s = (.ok a, t) ↔ x.result config s = (.ok a, t) := by
  rw [rethrow, result_bind_of_ok (result_attempt ..)]
  rcases x.result config s with ⟨_ | _, _⟩ <;> simp

/-- Cutting back the recorded frames in the end changes no more than these. -/
lemma exists_result_restoring (x : Eval σ α) (config : EngineConfig) (s : Session σ) :
    ∃ c, x.restoring.result config s =
      ((x.result config s).1, { (x.result config s).2 with counterexample := c }) := by
  rw [restoring, result_bind_of_ok (result_counterexampleSize ..)]
  rcases hx : x.result config s with ⟨e | a, t⟩
  · exact ⟨t.counterexample, result_bind_of_error hx⟩
  · rw [result_bind_of_ok hx]
    cases s.counterexample with
    | none => exact ⟨t.counterexample, rfl⟩
    | some c => exact ⟨_, rfl⟩

/-- The property is kept where the values of bindings are worked out. -/
structure KeptByDrawing (P : ∀ ⦃α : Type⦄, Eval σ α → Prop) : Prop where
  /-- A value. -/
  protected pure : ∀ {α : Type} (a : α), P (pure a : Eval σ α)
  /-- A failure. -/
  protected throw : ∀ {α : Type} (e : EvalError), P (throw e : Eval σ α)
  /-- Two evaluations in sequence. -/
  protected bind : ∀ {α β : Type} {x : Eval σ α} {f : α → Eval σ β},
    P x → (∀ a, P (f a)) → P (x >>= f)
  /-- A failure reported in another way. -/
  protected rethrow : ∀ {α : Type} (report : EvalError → EvalError) {x : Eval σ α},
    P x → P (x.rethrow report)
  /-- Enumerating subsets, which may wait. -/
  protected evalPowerSet : ∀ vs, P (Domain.evalPowerSet vs : Eval σ ValueSet)

/-- The property is kept where a predicate is asked on one combination after another. -/
structure KeptByScanning (P : ∀ ⦃α : Type⦄, Eval σ α → Prop) : Prop extends KeptByDrawing P where
  /-- The recorded frames cut back in the end. -/
  protected restoring : ∀ {α : Type} {x : Eval σ α}, P x → P x.restoring
  /-- Looking at the level. -/
  protected terminateRequested : P (terminateRequested : Eval σ Bool)
  /-- Clearing the recorded frames, or adding one. -/
  protected modifyCounterexample : ∀ f, P (modifyCounterexample f : Eval σ Unit)

/-- The engine keeps the property: all it does by itself has it, and so has what it puts together
from evaluations that have it. -/
structure KeptByEngine (P : ∀ ⦃α : Type⦄, Eval σ α → Prop) : Prop extends KeptByScanning P where
  /-- Reading the configuration. -/
  protected read : P (read : Eval σ EngineConfig)

/-! ### Two configurations -/

section

variable {β : Type} {config config' : EngineConfig}

/-- The evaluation ends alike under both configurations. -/
def AlikeUnder (config config' : EngineConfig) (x : Eval σ α) : Prop :=
  ∀ s, x.result config s = x.result config' s

/-- Two evaluations in sequence. -/
lemma AlikeUnder.bind {x : Eval σ α} {f : α → Eval σ β} (hx : x.AlikeUnder config config')
    (hf : ∀ a, (f a).AlikeUnder config config') : (x >>= f).AlikeUnder config config' := by
  intro s
  rw [result_bind, result_bind, hx s]
  rcases x.result config' s with ⟨e | a, t⟩
  · rfl
  · exact hf a t

/-- Nothing is read of the configuration. -/
lemma alikeUnder_onSession (x : StateM (Session σ) α) :
    (onSession x).AlikeUnder config config' :=
  fun _ => rfl

/-- **Bindings are worked out alike** under configurations with the same limit for subsets, which is
all that a domain looks at. -/
theorem keptByDrawing_alikeUnder (h : config.powersetLimit = config'.powersetLimit) :
    KeptByDrawing fun _ (x : Eval σ _) => x.AlikeUnder config config' where
  pure _ _ := rfl
  throw _ _ := rfl
  bind := AlikeUnder.bind
  rethrow := by
    intro α report x hx s
    rw [rethrow, result_bind_of_ok (result_attempt ..), result_bind_of_ok (result_attempt ..), hx s]
    rcases x.result config' s with ⟨e | a, t⟩ <;> rfl
  evalPowerSet := by
    intro vs s
    rw [Domain.evalPowerSet, result_bind_of_ok (result_read ..), result_bind_of_ok (result_read ..), h]
    refine (alikeUnder_onSession _).bind (fun outcome => ?_) s
    cases outcome <;> exact fun _ => rfl

end

/-! ### Where evaluations lead -/

section

variable {L : Session σ → Session σ → Prop}

/-- The evaluation leads from every session to a related one, whether it succeeds or not. -/
def LeadsTo (L : Session σ → Session σ → Prop) (config : EngineConfig) (x : Eval σ α) : Prop :=
  ∀ s, L s (x.result config s).2

/-- Sessions are related to those that come after them, where all that comes in between is that an
enumeration asks whether to stop. -/
structure IsPassage (L : Session σ → Session σ → Prop) : Prop where
  /-- Nothing has to happen. -/
  refl : ∀ s, L s s
  /-- More can happen afterwards. -/
  trans : ∀ {s t u}, L s t → L t u → L s u
  /-- An enumeration asks. -/
  ask : ∀ reason s, L s ((shouldTerminate reason).run s).2

/-- Asking a number of times whether to stop. -/
lemma IsPassage.stateAfter (hL : IsPassage L) (reason : String) (s : Session σ) (k : Nat) :
    L s (stateAfter (shouldTerminate reason) s k) := by
  induction k with
  | zero => exact hL.refl s
  | succ k ih => exact hL.trans ih (hL.ask reason _)

/-- Enumerating the subsets of a set of values. -/
lemma IsPassage.powerSet (hL : IsPassage L) (reason : String) (vs : ValueSet) (limit : Nat)
    (s : Session σ) : L s ((powerSet (shouldTerminate reason) vs limit).run.run s).2 := by
  obtain ⟨r, k, hrun⟩ := exists_run_subsets_eq (shouldTerminate reason) s vs.elements limit
  rw [run_powerSet, hrun]
  exact hL.stateAfter reason s k

/-- Two evaluations in sequence. -/
lemma LeadsTo.bind {β : Type} {config : EngineConfig} {x : Eval σ α} {f : α → Eval σ β}
    (hL : IsPassage L) (hx : LeadsTo L config x) (hf : ∀ a, LeadsTo L config (f a)) :
    LeadsTo L config (x >>= f) := by
  intro s
  have hmid := hx s
  rcases h : x.result config s with ⟨e | a, t⟩
  · rw [h] at hmid
    rw [result_bind_of_error h]
    exact hmid
  · rw [h] at hmid
    rw [result_bind_of_ok h]
    exact hL.trans hmid (hf a t)

/-- **The engine leads no further** than its questions do, apart from the recorded frames. -/
theorem keptByEngine_leadsTo (hL : IsPassage L)
    (hframes : ∀ s c, L s { s with counterexample := c }) (config : EngineConfig) :
    KeptByEngine fun _ (x : Eval σ _) => x.LeadsTo L config where
  pure _ := hL.refl
  throw _ := hL.refl
  bind := LeadsTo.bind hL
  rethrow := by
    intro α report x hx s
    rw [rethrow, result_bind_of_ok (result_attempt ..)]
    rcases (x.result config s).1 with e | a <;> exact hx s
  restoring := by
    intro α x hx s
    obtain ⟨c, hc⟩ := exists_result_restoring x config s
    rw [hc]
    exact hL.trans (hx s) (hframes _ c)
  read := hL.refl
  terminateRequested := hL.refl
  modifyCounterexample _ := fun s => hframes s _
  evalPowerSet := by
    intro vs s
    rw [Domain.evalPowerSet, result_bind_of_ok (result_read ..)]
    refine LeadsTo.bind hL (fun s => ?_) (fun r => ?_) s
    · exact hL.powerSet "power set" vs config.powersetLimit s
    · cases r <;> exact hL.refl

end

end Eval

/-- Counting for how many combinations a predicate is true, with the recorded frames cut back in the
end. -/
lemma Quantifier.evaluate_unique_eq (bs : List (Binding σ)) (p : Context → Eval σ Value)
    (env : Context) :
    unique.evaluate bs p env = (do
      let count ← (unique.scan bs env p false visitUnique 0).restoring
      pure (count == 1)) := by
  rw [evaluate]
  simp only [Eval.restoring, bind_assoc, pure_bind]

/-! ### The evaluations of the host -/

/-- The property holds of what the host computes for the domain. -/
def Domain.HostSatisfies (P : Eval σ Value → Prop) : Domain σ → Prop
  | .power d => d.HostSatisfies P
  | .dom d => d.HostSatisfies P
  | .rng d => d.HostSatisfies P
  | .computed _ run => ∀ env, P (run env)
  | _ => True

namespace Predicate

mutual

/-- The property holds of what the host evaluates for the predicate: its own predicates, its
computed domains, and what it makes of evaluations that have the property. -/
def HostSatisfies (P : Eval σ Value → Prop) : Predicate σ → Prop
  | .host run => ∀ env, P (run env)
  | .quantified _ bs body => (∀ b ∈ bs, b.domain.HostSatisfies P) ∧ body.HostSatisfies P
  | .compound parts run => ListHostSatisfies P parts ∧
      ∀ evaluations, (∀ evaluate ∈ evaluations, ∀ env, P (evaluate env)) →
        ∀ env, P (run evaluations env)
  | .shared p => p.HostSatisfies P

/-- The same for a list of predicates. -/
def ListHostSatisfies (P : Eval σ Value → Prop) : List (Predicate σ) → Prop
  | [] => True
  | p :: ps => p.HostSatisfies P ∧ ListHostSatisfies P ps

end

mutual

/-- Changing bindings without touching their domains does not concern the host. -/
lemma HostSatisfies.mapBindings {P : Eval σ Value → Prop} {f : Binding σ → Binding σ}
    (hf : ∀ b, (f b).domain = b.domain) :
    ∀ {p : Predicate σ}, p.HostSatisfies P → (p.mapBindings f).HostSatisfies P
  | .host _, h => h
  | .quantified _ _ _, h =>
    ⟨List.forall_mem_map.mpr fun b hb => (hf b).symm ▸ h.1 b hb, HostSatisfies.mapBindings hf h.2⟩
  | .compound _ _, h => ⟨ListHostSatisfies.mapListBindings hf h.1, h.2⟩
  | .shared _, h => h

/-- The same for a list of predicates. -/
lemma ListHostSatisfies.mapListBindings {P : Eval σ Value → Prop} {f : Binding σ → Binding σ}
    (hf : ∀ b, (f b).domain = b.domain) :
    ∀ {ps : List (Predicate σ)}, ListHostSatisfies P ps →
      ListHostSatisfies P (mapListBindings f ps)
  | [], _ => trivial
  | _ :: _, h => ⟨HostSatisfies.mapBindings hf h.1, ListHostSatisfies.mapListBindings hf h.2⟩

end

end Predicate

/-- The values of a binding are those of its domain, with a failure reported for the binding. -/
lemma Binding.draw_eq_rethrow (b : Binding σ) (lenient : Bool) (env : Context) :
    b.draw lenient env = if b.patterns.isEmpty then pure []
      else (b.resolveValues lenient env).rethrow (.inBinding b.text) := by
  rw [draw, Eval.rethrow]
  split
  case isTrue => rfl
  case isFalse => exact bind_congr fun r => by cases r <;> rfl

/-! ### Domains and bindings -/

namespace Eval.KeptByDrawing

variable {P : ∀ ⦃α : Type⦄, Eval σ α → Prop} (hP : KeptByDrawing P)

include hP

/-- One evaluation after another. -/
lemma mapM {α β : Type} {f : α → Eval σ β} {xs : List α} (h : ∀ x ∈ xs, P (f x)) :
    P (xs.mapM f) := by
  induction xs with
  | nil =>
    rw [List.mapM_nil]
    exact hP.pure _
  | cons x xs ih =>
    obtain ⟨hx, hxs⟩ := List.forall_mem_cons.mp h
    rw [List.mapM_cons]
    exact hP.bind hx fun b => hP.bind (ih hxs) fun bs => hP.pure _

/-- A domain that is built from another one works that one out first, and then enumerates subsets at
most. -/
lemma resolve {d : Domain σ} (hd : d.HostSatisfies (@P Value)) (lenient : Bool) (env : Context) :
    P (d.resolve lenient env) := by
  induction d with
  | value v => exact hP.pure _
  | name n =>
    rw [Domain.resolve]
    cases env.lookup? n with
    | some v => exact hP.pure _
    | none =>
      cases lenient with
      | true => exact hP.pure _
      | false => exact hP.throw _
  | range lo hi => exact hP.pure _
  | power d ih =>
    refine hP.bind (ih hd) fun v => ?_
    split
    · exact hP.pure _
    · exact hP.bind (hP.evalPowerSet _) fun parts => hP.pure _
    · exact hP.throw _
  | dom d ih | rng d ih =>
    refine hP.bind (ih hd) fun v => ?_
    split
    · exact hP.pure _
    · exact hP.pure _
    · exact hP.throw _
  | type t => exact hP.throw _
  | computed label run => exact hP.bind (hd env) fun v => hP.pure _

/-- The values of a binding over such a domain. -/
lemma resolveValues {b : Binding σ} (hb : b.domain.HostSatisfies (@P Value)) (lenient : Bool)
    (env : Context) : P (b.resolveValues lenient env) := by
  rw [Binding.resolveValues]
  cases b.overridden with
  | some values => exact hP.pure _
  | none =>
    refine hP.bind (hP.resolve hb lenient env) fun v => ?_
    cases v with
    | none => exact hP.pure _
    | some v =>
      dsimp only
      cases Binding.enumerate? b.kind v with
      | some vs => exact hP.pure _
      | none => exact hP.throw _

/-- What the patterns of the binding draw from. -/
lemma draw {b : Binding σ} (hb : b.domain.HostSatisfies (@P Value)) (lenient : Bool)
    (env : Context) : P (b.draw lenient env) := by
  rw [b.draw_eq_rethrow]
  split
  case isTrue => exact hP.pure _
  case isFalse => exact hP.rethrow _ (hP.resolveValues hb lenient env)

/-- **Working out bindings** over such domains. -/
theorem resolveEach {bs : List (Binding σ)} (hbs : ∀ b ∈ bs, b.domain.HostSatisfies (@P Value))
    (lenient : Bool) (env : Context) : P (Binding.resolveEach lenient env bs) := by
  induction bs with
  | nil => exact hP.pure _
  | cons b bs ih =>
    obtain ⟨hb, hrest⟩ := List.forall_mem_cons.mp hbs
    exact hP.bind (hP.draw hb lenient env) fun values => hP.bind (ih hrest) fun rest => hP.pure _

end Eval.KeptByDrawing

/-! ### Scans -/

namespace Eval.KeptByScanning

variable {P : ∀ ⦃α : Type⦄, Eval σ α → Prop} (hP : KeptByScanning P)

include hP

variable {β : Type} {q : Quantifier} {env : Context} {p : Context → Eval σ Value}

/-- Asking a predicate that has the property on a frame. -/
lemma ask (hp : ∀ c, P (p c)) (f : Frame) : P (q.ask env p f) := by
  refine hP.bind (hp _) fun v => ?_
  cases v.asBool? with
  | none => exact hP.throw _
  | some holds => exact hP.pure _

/-- A scan over combinations, with a predicate and a visitor that have the property. -/
lemma scanList (hp : ∀ c, P (p c)) {visit : β → Bool → Frame → Eval σ (ForInStep β)}
    (hvisit : ∀ acc holds f, P (visit acc holds f)) (ms : List Match) (acc : β) :
    P (q.scanList env p visit ms acc) := by
  induction ms generalizing acc with
  | nil => exact hP.pure _
  | cons m ms ih =>
    refine hP.bind hP.terminateRequested fun stop => ?_
    cases stop with
    | true => exact hP.throw _
    | false =>
      rw [if_neg Bool.false_ne_true]
      cases m.toFrame? with
      | none => exact ih acc
      | some f =>
        refine hP.bind (hP.ask hp f) fun holds => hP.bind (hvisit acc holds f) fun step => ?_
        cases step with
        | done acc => exact hP.pure _
        | yield acc => exact ih acc

/-- The evaluation of a quantification, if its scan has the property whatever is done on the frames,
as long as that has it. -/
lemma evaluate_of_scan (q : Quantifier) {bs : List (Binding σ)}
    (hscan : ∀ {β : Type} {visit : β → Bool → Frame → Eval σ (ForInStep β)},
      (∀ acc holds f, P (visit acc holds f)) →
        ∀ startsClear acc, P (q.scan bs env p startsClear visit acc)) :
    P (q.evaluate bs p env) := by
  cases q with
  | universal =>
    have hvisit : ∀ acc holds f, P (Quantifier.visitUniversal acc holds f) := by
      intro acc holds f
      cases holds <;> exact hP.bind (hP.modifyCounterexample _) fun _ => hP.pure _
    refine hP.bind (hscan hvisit true true) fun holds => ?_
    cases holds with
    | false => exact hP.pure _
    | true => exact hP.bind (hP.modifyCounterexample _) fun _ => hP.pure _
  | existential => exact hP.restoring (hscan (fun _ _ _ => hP.pure _) false false)
  | unique =>
    have hcount : P (Quantifier.unique.scan bs env p false Quantifier.visitUnique 0) :=
      hscan (fun _ _ _ => hP.pure _) false 0
    rw [Quantifier.evaluate_unique_eq]
    exact hP.bind (hP.restoring hcount) fun count => hP.pure (count == 1)

end Eval.KeptByScanning

/-! ### Quantifications -/

namespace Eval.KeptByEngine

variable {P : ∀ ⦃α : Type⦄, Eval σ α → Prop}

section

variable (hP : KeptByEngine P)

include hP

variable {β : Type} {q : Quantifier} {env : Context} {p : Context → Eval σ Value}

/-- A scan over bindings, if working them out has the property. -/
lemma scan {bs : List (Binding σ)} (hdraw : ∀ lenient, P (Binding.resolveEach lenient env bs))
    (hp : ∀ c, P (p c)) {visit : β → Bool → Frame → Eval σ (ForInStep β)}
    (hvisit : ∀ acc holds f, P (visit acc holds f)) (startsClear : Bool) (acc : β) :
    P (q.scan bs env p startsClear visit acc) := by
  rw [Quantifier.scan_eq]
  refine hP.bind hP.read fun config => hP.bind (hdraw _) fun values => ?_
  refine hP.bind ?_ fun _ => hP.scanList hp hvisit _ acc
  cases startsClear with
  | false => exact hP.pure ()
  | true => exact hP.modifyCounterexample _

/-- The evaluation of a quantification, if its predicate and working out its bindings have the
property. -/
lemma quantifier_of_resolveEach (q : Quantifier) {bs : List (Binding σ)}
    (hdraw : ∀ lenient, P (Binding.resolveEach lenient env bs)) (hp : ∀ c, P (p c)) :
    P (q.evaluate bs p env) :=
  hP.evaluate_of_scan q fun hvisit => hP.scan hdraw hp hvisit

/-- **The evaluation of a quantification** has the property, if its predicate and what the host
computes for its domains have it. -/
theorem quantifier (q : Quantifier) {bs : List (Binding σ)}
    (hbs : ∀ b ∈ bs, b.domain.HostSatisfies (@P Value)) (hp : ∀ c, P (p c)) :
    P (q.evaluate bs p env) :=
  hP.quantifier_of_resolveEach q (fun lenient => hP.resolveEach hbs lenient env) hp

end

/-! ### Predicates -/

mutual

/-- **The evaluation of a predicate** has the property, if what the host evaluates for it has it.

**Proof sketch.** Induction on the predicate. The one case that needs an argument is that of a
quantification, which is the theorem before. -/
theorem predicate (hP : KeptByEngine P) :
    ∀ {p : Predicate σ}, p.HostSatisfies (@P Value) → ∀ env, P (p.evaluate env)
  | .host _, h, env => h env
  | .quantified q _ _, h, _ => hP.bind (hP.quantifier q h.1 (predicate hP h.2)) fun _ => hP.pure _
  | .compound _ _, h, env => h.2 _ (predicates hP h.1) env
  | .shared p, h, env => predicate hP (p := p) h env

/-- The same for a list of predicates. -/
lemma predicates (hP : KeptByEngine P) :
    ∀ {ps : List (Predicate σ)}, Predicate.ListHostSatisfies (@P Value) ps →
      ∀ evaluate ∈ Predicate.evaluations ps, ∀ env, P (evaluate env)
  | [], _ => nofun
  | _ :: _, h => List.forall_mem_cons.mpr ⟨predicate hP h.1, predicates hP h.2⟩

end

end Eval.KeptByEngine

end BoundedLogic
