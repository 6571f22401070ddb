import BoundedLogic.Proofs.Evaluation.Closure

set_option relaxedAutoImplicit false
set_option autoImplicit false

/-!
# Names that are bound nowhere

A domain can name a variable that no scope binds. Strictly this is an error; leniently such a domain
is taken as empty. A name is asked for only at the bottom of a domain, below any number of `power`,
`dom` and `rng`, each of which passes on what it gets from there, the error or the missing value. So
apart from domains of this form, the lenient evaluation of a domain is the strict one, whatever else
goes wrong in it.

Whatever is strictly worked out for bindings is therefore also worked out leniently.

## Main definitions

* `BoundedLogic.Domain.IsChainOver` — a name below `power`, `dom` and `rng`.
* `BoundedLogic.Eval.Carries` — what an evaluation returns, another one returns as well.

## Main results

* `BoundedLogic.Domain.resolve_eq_or` — the two evaluations of a domain.
* `BoundedLogic.Domain.result_resolve_eq_none_iff` — where a domain has no value.
* `BoundedLogic.Binding.carries_resolveEach` — the strict evaluation of bindings and the lenient
  one.
-/

namespace BoundedLogic

variable {σ : Type} {env : Context} {config config' : EngineConfig}

/-! ### Domains -/

namespace Domain

variable {n : String} {d : Domain σ}

/-- The domain is made of `power`, `dom` and `rng` over a name. -/
inductive IsChainOver (n : String) : Domain σ → Prop where
  /-- The name itself. -/
  | name : IsChainOver n (.name n)
  /-- The subsets of a set. -/
  | power {d : Domain σ} (h : IsChainOver n d) : IsChainOver n (.power d)
  /-- The keys of a map. -/
  | dom {d : Domain σ} (h : IsChainOver n d) : IsChainOver n (.dom d)
  /-- The values of a map. -/
  | rng {d : Domain σ} (h : IsChainOver n d) : IsChainOver n (.rng d)

/-- A name that is bound nowhere is missed all the way up: either there is no value, or the error is
the one about the name. -/
lemma IsChainOver.resolve_eq (h : d.IsChainOver n) (hn : env.lookup? n = none) (lenient : Bool) :
    d.resolve lenient env = if lenient then pure none else throw (.unresolvedName n) := by
  induction h with
  | name => rw [resolve, hn]
  | power _ ih | dom _ ih | rng _ ih =>
    rw [resolve, ih]
    cases lenient <;> rfl

/-- **The two evaluations of a domain** are the same one, unless the domain is such a chain over a
name that is bound nowhere.

**Proof sketch.** Induction on the domain. The operators work out what they are applied to and then
go on in the same way. -/
theorem resolve_eq_or (d : Domain σ) (env : Context) :
    (∃ n, d.IsChainOver n ∧ env.lookup? n = none) ∨ d.resolve true env = d.resolve false env := by
  induction d with
  | value v => exact .inr rfl
  | name n =>
    cases hn : env.lookup? n with
    | none => exact .inl ⟨n, .name, hn⟩
    | some v => exact .inr (by rw [resolve, resolve, hn])
  | range lo hi => exact .inr rfl
  | power d ih | dom d ih | rng d ih =>
    rcases ih with ⟨n, hd, hn⟩ | ih
    · exact .inl ⟨n, by constructor; exact hd, hn⟩
    · exact .inr (by rw [resolve, resolve, ih])
  | type t => exact .inr rfl
  | computed label run => exact .inr rfl

/-- A strict evaluation never comes back without a value.

**Proof sketch.** Induction on the domain. An operator comes back without a value only if what it is
applied to does. -/
lemma result_resolve_false_ne_none (d : Domain σ) (env : Context) (config : EngineConfig)
    (s t : Session σ) : (d.resolve false env).result config s ≠ (.ok none, t) := by
  intro h
  induction d generalizing t with
  | value v | range lo hi | type t => simp [resolve] at h
  | name n =>
    rw [resolve] at h
    split at h <;> simp at h
  | power d ih =>
    rw [resolve, Eval.result_bind_eq_ok_iff] at h
    obtain ⟨v, u, hv, h⟩ := h
    split at h
    · exact ih u hv
    · obtain ⟨parts, w, -, h⟩ := Eval.result_bind_eq_ok_iff.mp h
      simp at h
    · simp at h
  | dom d ih | rng d ih =>
    rw [resolve, Eval.result_bind_eq_ok_iff] at h
    obtain ⟨v, u, hv, h⟩ := h
    split at h
    · exact ih u hv
    · simp at h
    · simp at h
  | computed label run =>
    obtain ⟨v, u, -, h⟩ := Eval.result_bind_eq_ok_iff.mp h
    simp at h

/-- **A domain has no value** exactly if it is such a chain over a name that is bound nowhere, and
this is asked for leniently. -/
theorem result_resolve_eq_none_iff {s : Session σ} :
    (∃ t, (d.resolve true env).result config s = (.ok none, t)) ↔
      ∃ n, d.IsChainOver n ∧ env.lookup? n = none := by
  constructor
  · rintro ⟨t, h⟩
    rcases d.resolve_eq_or env with hunbound | hsame
    · exact hunbound
    · rw [hsame] at h
      exact absurd h (d.result_resolve_false_ne_none env config s t)
  · rintro ⟨n, hd, hn⟩
    exact ⟨s, by rw [hd.resolve_eq hn]; rfl⟩

end Domain

/-! ### What evaluations return -/

namespace Eval

variable {α β : Type} {x y : Eval σ α}

/-- Whatever the first evaluation returns under the first configuration, the second one returns
under the second, and does the same to the session. Nothing is said about failures of the first. -/
def Carries (config config' : EngineConfig) (x y : Eval σ α) : Prop :=
  ∀ s a t, x.result config s = (.ok a, t) → y.result config' s = (.ok a, t)

/-- An evaluation returns what it returns. -/
lemma Carries.refl (x : Eval σ α) : Carries config config x x :=
  fun _ _ _ h => h

/-- An evaluation that ends alike under both configurations. -/
lemma AlikeUnder.carries (h : x.AlikeUnder config config') : Carries config config' x x := by
  intro s a t hx
  rw [← h s, hx]

/-- A failure returns nothing. -/
lemma carries_throw (e : EvalError) : Carries config config' (throw e) y := by
  intro s a t h
  simp at h

/-- Two evaluations in sequence. -/
lemma Carries.bind {f g : α → Eval σ β} (hxy : Carries config config' x y)
    (hfg : ∀ a, Carries config config' (f a) (g a)) :
    Carries config config' (x >>= f) (y >>= g) := by
  intro s b t h
  obtain ⟨a, u, ha, hb⟩ := result_bind_eq_ok_iff.mp h
  exact result_bind_eq_ok_iff.mpr ⟨a, u, hxy s a u ha, hfg a u b t hb⟩

/-- Failures reported in another way. -/
lemma Carries.rethrow (h : Carries config config' x y) (report : EvalError → EvalError) :
    Carries config config' (x.rethrow report) (y.rethrow report) := by
  intro s a t hx
  rw [result_rethrow_eq_ok_iff] at hx ⊢
  exact h s a t hx

end Eval

/-! ### Bindings -/

namespace Binding

open Eval

/-- The values of a binding are returned leniently if they are strictly. A domain without a value
has none of these. -/
lemma carries_resolveValues (b : Binding σ) (env : Context) :
    Carries config config (b.resolveValues false env) (b.resolveValues true env) := by
  rw [resolveValues, resolveValues]
  cases b.overridden with
  | some values => exact .refl _
  | none =>
    rcases b.domain.resolve_eq_or env with ⟨n, hd, hn⟩ | hsame
    · rw [hd.resolve_eq hn]
      exact carries_throw (.unresolvedName n)
    · rw [hsame]
      exact .refl _

/-- **Bindings are worked out leniently** with the values with which they are worked out
strictly. -/
theorem carries_resolveEach (bs : List (Binding σ)) (env : Context) :
    Carries config config (resolveEach false env bs) (resolveEach true env bs) := by
  induction bs with
  | nil => exact .refl _
  | cons b bs ih =>
    have hdraw : Carries config config (b.draw false env) (b.draw true env) := by
      rw [draw_eq_rethrow, draw_eq_rethrow]
      split
      case isTrue => exact .refl _
      case isFalse => exact (b.carries_resolveValues env).rethrow _
    exact hdraw.bind fun values => ih.bind fun rest => .refl _

end Binding

end BoundedLogic
