import BoundedLogic.Proofs.Evaluation.UnboundNames

set_option relaxedAutoImplicit false
set_option autoImplicit false

/-!
# Strict and lenient quantifications

A domain over a name that is bound nowhere is an error when it is taken strictly and empty when it
is taken leniently, and these lead to very different answers: a universal quantification over an
empty domain is true. Still the two never contradict each other. Where the strict evaluation of a
quantification gives an answer, it met no such name, neither in its own bindings nor in those of the
quantifications it asked about below; so the lenient evaluation works out the same values, asks
about the same frames and gives the same answer.

## Main definitions

* `BoundedLogic.EngineConfig.strict`, `BoundedLogic.EngineConfig.lenient` — the two configurations.
* `BoundedLogic.Predicate.LeavesSatisfy` — a property of the predicates below all nested
  quantifications, and of what the host computes for their domains.

## Main results

* `BoundedLogic.Eval.keptByScanning_carries` — once bindings are worked out, no more than the limit
  for subsets is read of the configuration.
* `BoundedLogic.Predicate.carries_evaluate` — strict answers are lenient answers.
* `BoundedLogic.lenient_differs_only_on_unbound_names` — the two evaluations of domains and of
  quantifications.
-/

namespace BoundedLogic

variable {σ : Type} {env : Context} {config config' : EngineConfig}

namespace EngineConfig

/-- A domain over a name that is bound nowhere is an error. -/
def strict (config : EngineConfig) : EngineConfig :=
  { config with allowUnresolved := false }

/-- A domain over a name that is bound nowhere is taken as empty. -/
def lenient (config : EngineConfig) : EngineConfig :=
  { config with allowUnresolved := true }

/-- The limit for subsets is the same in both. -/
lemma powersetLimit_strict (config : EngineConfig) :
    config.strict.powersetLimit = config.lenient.powersetLimit := rfl

end EngineConfig

/-! ### Scans -/

/-- **What is returned is the same** under configurations with the same limit for subsets, if it is
so for the parts. Only a quantification reads more of the configuration, before its scan. -/
theorem Eval.keptByScanning_carries (h : config.powersetLimit = config'.powersetLimit) :
    KeptByScanning fun _ (x : Eval σ _) => Carries config config' x x where
  pure a := ((keptByDrawing_alikeUnder h).pure a).carries
  throw e := carries_throw e
  bind := Carries.bind
  rethrow report _ hx := hx.rethrow report
  evalPowerSet vs := ((keptByDrawing_alikeUnder h).evalPowerSet vs).carries
  restoring := by
    intro α x hx
    have hsize : AlikeUnder config config' (counterexampleSize : Eval σ (Option Nat)) := fun _ => rfl
    refine hsize.carries.bind fun mark => hx.bind fun a => AlikeUnder.carries fun s => ?_
    cases mark <;> rfl
  terminateRequested := AlikeUnder.carries fun _ => rfl
  modifyCounterexample f := AlikeUnder.carries fun _ => rfl

namespace Quantifier

open Eval

variable {bs : List (Binding σ)} {p : Context → Eval σ Value}

/-- The values with which bindings are worked out strictly are those with which they are worked out
leniently, if the host computes the same both times.

**Proof sketch.** Taking unbound names leniently changes nothing about what is returned, and nothing
else in the working out looks at how they are taken. -/
lemma carries_resolveEach (hbs : ∀ b ∈ bs,
      b.domain.HostSatisfies (AlikeUnder config.strict config.lenient)) :
    Carries config.strict config.lenient (Binding.resolveEach false env bs)
      (Binding.resolveEach true env bs) := by
  intro s values t h
  -- from strict to lenient under one configuration, then on to the other configuration
  have hlenient := Binding.carries_resolveEach bs env s values t h
  have halike : (Binding.resolveEach true env bs).AlikeUnder config.strict config.lenient :=
    (keptByDrawing_alikeUnder config.powersetLimit_strict).resolveEach hbs true env
  exact halike.carries s values t hlenient

/-- **The answer of a strict quantification** is that of the lenient one, if the host computes the
same domains for both and the predicate passes on what it returns. -/
theorem carries_evaluate (q : Quantifier)
    (hbs : ∀ b ∈ bs, b.domain.HostSatisfies (AlikeUnder config.strict config.lenient))
    (hp : ∀ c, Carries config.strict config.lenient (p c) (p c)) :
    Carries config.strict config.lenient (q.evaluate bs p env) (q.evaluate bs p env) := by
  have hkept : KeptByScanning fun _ (x : Eval σ _) => Carries config.strict config.lenient x x :=
    keptByScanning_carries config.powersetLimit_strict
  refine hkept.evaluate_of_scan q fun {β visit} hvisit startsClear acc => ?_
  intro s b t h
  obtain ⟨values, u, hvalues, hscan⟩ := result_scan_eq_ok_iff.mp h
  refine result_scan_eq_ok_iff.mpr ⟨values, u, carries_resolveEach hbs s values u hvalues, ?_⟩
  exact hkept.scanList hp hvisit _ acc _ b t hscan

end Quantifier

/-! ### Nests of quantifications -/

namespace Predicate

open Eval

/-- The property holds of the predicates below the nested quantifications, and of what the host
computes for the domains of these. A predicate that the host puts together from others is not looked
into. -/
def LeavesSatisfy (P : Eval σ Value → Prop) : Predicate σ → Prop
  | .host run => ∀ env, P (run env)
  | .quantified _ bs body => (∀ b ∈ bs, b.domain.HostSatisfies P) ∧ body.LeavesSatisfy P
  | .compound parts run => ∀ env, P (run (evaluations parts) env)
  | .shared p => p.LeavesSatisfy P

/-- **What a nest of quantifications returns strictly** it returns leniently, if its leaves end
alike.

**Proof sketch.** Induction on the predicate. At every quantification the values of the bindings are
the same, and the predicate below is asked about the same frames. -/
theorem carries_evaluate : ∀ {p : Predicate σ},
    p.LeavesSatisfy (AlikeUnder config.strict config.lenient) →
      ∀ env, Carries config.strict config.lenient (p.evaluate env) (p.evaluate env)
  | .host _, h, env => AlikeUnder.carries (h env)
  | .quantified q _ _, h, _ =>
    (q.carries_evaluate h.1 (carries_evaluate h.2)).bind fun _ => AlikeUnder.carries fun _ => rfl
  | .compound _ _, h, env => AlikeUnder.carries (h env)
  | .shared p, h, env => carries_evaluate (p := p) h env

end Predicate

/-! ### Both evaluations -/

/-- **Lenient evaluation differs from strict evaluation only on unbound names.** For every domain,
context and configuration, and whatever the host computes,

* a strict evaluation never comes back without a value;
* a lenient one does exactly if the domain is made of `power`, `dom` and `rng` over a name that no
  scope binds;
* where it is, the strict evaluation fails with the error about this name and does nothing else;
* where it is not, both evaluations end alike, with the same value or the same error.

For every quantification, however many others are nested in it, whose leaves and computed domains
end alike under both configurations, an answer of the strict evaluation is the answer of the lenient
one. -/
theorem lenient_differs_only_on_unbound_names (d : Domain σ) (q : Quantification σ) (env : Context)
    (config : EngineConfig) (s : Session σ) :
    (∀ t, (d.resolve false env).result config s ≠ (.ok none, t)) ∧
    ((∃ t, (d.resolve true env).result config s = (.ok none, t)) ↔
      ∃ n, d.IsChainOver n ∧ env.lookup? n = none) ∧
    (∀ n, d.IsChainOver n → env.lookup? n = none →
      (d.resolve false env).result config s = (.error (.unresolvedName n), s)) ∧
    ((¬ ∃ n, d.IsChainOver n ∧ env.lookup? n = none) →
      (d.resolve true env).result config s = (d.resolve false env).result config s) ∧
    (q.toPredicate.LeavesSatisfy (Eval.AlikeUnder config.strict config.lenient) →
      ∀ b t, (q.evaluate env).result config.strict s = (.ok b, t) →
        (q.evaluate env).result config.lenient s = (.ok b, t)) := by
  refine ⟨d.result_resolve_false_ne_none env config s, Domain.result_resolve_eq_none_iff,
    fun n hd hn => ?_, fun hbound => ?_, fun hq b t h => ?_⟩
  · rw [hd.resolve_eq hn]
    rfl
  · rw [(d.resolve_eq_or env).resolve_left hbound]
  · exact q.quantifier.carries_evaluate hq.1 (Predicate.carries_evaluate hq.2) s b t h

/-- `exists x in set {1} & forall y in set {} & exists z in set power S & true`: a nest that names
`S`, but never asks for it. -/
def someXNoYPowerS : Quantification Unit where
  quantifier := .existential
  bindings := [.overIntegers ["x"] [1]]
  body := .quantified .universal [.overIntegers ["y"] []] (.quantified .existential
    [{ patterns := [.name "z"], kind := .inSet, domain := .power (.name "S") }]
    (.host fun _ => pure (.bool true)))

/-- The domain `power S` of the nest, and the nest, where `S` is bound nowhere. -/
theorem lenient_differs_only_on_unbound_names_powerS :
    let d : Domain Unit := .power (.name "S")
    let config : EngineConfig := {}
    d.IsChainOver "S" ∧ Context.root.lookup? "S" = none ∧
      someXNoYPowerS.toPredicate.LeavesSatisfy (Eval.AlikeUnder config.strict config.lenient) ∧
      (∃ t, (d.resolve true .root).result config (.running []) = (.ok none, t)) ∧
      (d.resolve false .root).result config (.running []) =
        (.error (.unresolvedName "S"), .running []) ∧
      (someXNoYPowerS.evaluate .root).result config.lenient (.running []) =
        (.ok true, .running []) := by
  intro d config
  have hchain : d.IsChainOver "S" := .power .name
  have hunbound : Context.root.lookup? "S" = none := rfl
  have hleaves : someXNoYPowerS.toPredicate.LeavesSatisfy
      (Eval.AlikeUnder config.strict config.lenient) := by
    refine ⟨?_, ?_, ?_, fun env s => rfl⟩ <;>
    · intro b hb
      obtain rfl := List.mem_singleton.mp hb
      trivial
  have hstrict : (someXNoYPowerS.evaluate .root).result config.strict (.running []) =
      (.ok true, .running []) := rfl
  obtain ⟨-, hnone, herror, -, hcarried⟩ :=
    lenient_differs_only_on_unbound_names d someXNoYPowerS .root config (.running [])
  exact ⟨hchain, hunbound, hleaves, hnone.mpr ⟨"S", hchain, hunbound⟩, herror "S" hchain hunbound,
    hcarried hleaves true (.running []) hstrict⟩

end BoundedLogic
