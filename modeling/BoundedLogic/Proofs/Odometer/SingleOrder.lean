import BoundedLogic.Proofs.Evaluation.Closure
import BoundedLogic.Proofs.Odometer.Enumeration
import BoundedLogic.Proofs.Pattern.SingleOrder

set_option relaxedAutoImplicit false
set_option autoImplicit false

/-!
# Enumerating with one order or with all

An odometer that tries one order of the elements of sets only delivers fewer combinations than one
that tries all orders, but it delivers none that the other one does not, and those that both deliver
come in the same order. This is passed on from the wheels to their product. The domains have to be
the same for both, which they are unless the host computes them and looks at the mode.

## Main definitions

* `BoundedLogic.Eval.IgnoresOrders` — evaluations that end alike with one order and with all.

## Main results

* `BoundedLogic.Match.product_sublist` — combinations of fewer matches are fewer combinations.
* `BoundedLogic.Binding.combinations_sublist` — the combinations of bindings in both modes.
* `BoundedLogic.Odometer.singleOrder_refines_allOrders` — matching and enumerating with one order
  refines matching and enumerating with all.
-/

namespace BoundedLogic

/-! ### Combinations -/

/-- Combinations of fewer matches are fewer combinations, in the same order. -/
lemma Match.product_sublist {mss nss : List (List Match)} (h : List.Forall₂ List.Sublist mss nss) :
    (product mss).Sublist (product nss) := by
  induction h with
  | nil => exact .refl _
  | cons h _ ih =>
    rw [product, product]
    exact (h.flatMap _).trans (.flatMap_right _ fun m _ => ih.map (m ++ ·))

namespace Binding

variable {σ : Type}

/-- What each pattern of a binding finds with one order it also finds with all. -/
lemma forall₂_found_sublist (b : Binding σ) (values : List Value) :
    List.Forall₂ List.Sublist (b.found false values) (b.found true values) := by
  rw [found, found, List.forall₂_map_left_iff, List.forall₂_map_right_iff]
  exact List.forall₂_same.mpr fun p _ =>
    .flatMap_right values fun v _ => (p.atMostFirst_matchings v).sublist

/-- **The combinations of bindings with one order** are among those with all, in the same order. -/
theorem combinations_sublist (bs : List (Binding σ)) (values : List (List Value)) :
    (combinations false bs values).Sublist (combinations true bs values) := by
  apply Match.product_sublist
  induction bs generalizing values with
  | nil => exact .nil
  | cons b bs ih =>
    cases values with
    | nil => exact .nil
    | cons vs rest =>
      rw [List.zipWith_cons_cons, List.zipWith_cons_cons, List.flatten_cons, List.flatten_cons]
      exact List.rel_append (b.forall₂_found_sublist vs) (ih rest)

end Binding

/-! ### Domains -/

namespace Eval

variable {σ α : Type}

/-- The evaluation ends alike whether one order of the elements of sets is tried or all. -/
def IgnoresOrders (config : EngineConfig) (x : Eval σ α) : Prop :=
  ∀ s, x.result { config with allPossibilities := false } s =
    x.result { config with allPossibilities := true } s

/-- Only the patterns look at the mode: bindings are worked out alike. -/
theorem keptByDrawing_ignoresOrders (config : EngineConfig) :
    KeptByDrawing fun _ (x : Eval σ _) => x.IgnoresOrders config :=
  keptByDrawing_alikeUnder rfl

end Eval

/-! ### Odometers -/

namespace Odometer

variable {σ : Type}

/-- **One order refines all orders.** With one order a pattern matches a value in at most one way,
which is one of the ways with all orders; and if it takes no set apart, the ways are the same.

So it is for enumerations. Take the odometer of some bindings in any state, where the domains of the
bindings are literals, or others, as long as what the host computes for them does not look at the
mode. Started in the two modes it fails for the same reason, or in both modes it starts; then it
delivers, with one order, some of the combinations that it delivers with all, in the same order. -/
theorem singleOrder_refines_allOrders {bs : List (Binding σ)} {o : Odometer σ} (h : Reached bs o)
    {config : EngineConfig} (hbs : ∀ b ∈ bs, b.domain.HostSatisfies (Eval.IgnoresOrders config))
    (lenient : Bool) (env : Context) (s : Session σ) :
    (∀ (p : Pattern) (v : Value), (p.matchings false v).length ≤ 1 ∧
      (p.matchings false v).Sublist (p.matchings true v) ∧
      (p.isSetFree = true → p.matchings false v = p.matchings true v)) ∧
    ((∃ e t o₁ o₂,
      (o.start lenient env).result { config with allPossibilities := false } s =
        (.ok (o₁, some e), t) ∧
      (o.start lenient env).result { config with allPossibilities := true } s =
        (.ok (o₂, some e), t)) ∨
    ∃ ms₁ ms₂ t o₁ o₂,
      (o.start lenient env).result { config with allPossibilities := false } s =
        (.ok (o₁, none), t) ∧
      (o.start lenient env).result { config with allPossibilities := true } s =
        (.ok (o₂, none), t) ∧
      o₁.Delivers ms₁ ∧ o₂.Delivers ms₂ ∧ ms₁.Sublist ms₂) := by
  refine ⟨fun p v => ?_, ?_⟩
  · have hfirst := p.atMostFirst_matchings v
    exact ⟨hfirst.length_le_one, hfirst.sublist, fun hp => Pattern.matchings_eq_of_isSetFree hp v⟩
  · have hdraw := (Eval.keptByDrawing_ignoresOrders config).resolveEach hbs lenient env s
    rcases hvalues : (Binding.resolveEach lenient env bs).result
        { config with allPossibilities := true } s with ⟨e | values, t⟩
    · rw [hvalues] at hdraw
      obtain ⟨o₁, h₁⟩ := h.start_of_error hdraw
      obtain ⟨o₂, h₂⟩ := h.start_of_error hvalues
      exact .inl ⟨e, t, o₁, o₂, h₁, h₂⟩
    · rw [hvalues] at hdraw
      obtain ⟨o₁, h₁, hdelivers₁⟩ := h.start_of_ok hdraw
      obtain ⟨o₂, h₂, hdelivers₂⟩ := h.start_of_ok hvalues
      exact .inr ⟨_, _, t, o₁, o₂, h₁, h₂, hdelivers₁, hdelivers₂,
        Binding.combinations_sublist bs values⟩

/-- The binding `{a, {b, c}} in set {{1, {2, 3}}}`. -/
def bindingsPairs : List (Binding Unit) :=
  [{ patterns := [Pattern.pairInSet], kind := .inSet,
     domain := .value (.set [.set [.int 1, .set [.int 2, .int 3]]]) }]

/-- The odometer of `{a, {b, c}} in set {{1, {2, 3}}}`, before it is used, in both modes. -/
theorem singleOrder_refines_allOrders_pairs :
    let o := ofBindings bindingsPairs
    Reached bindingsPairs o ∧
    (∀ b ∈ bindingsPairs, b.domain.HostSatisfies (Eval.IgnoresOrders {})) ∧
    (∀ (p : Pattern) (v : Value), (p.matchings false v).length ≤ 1 ∧
      (p.matchings false v).Sublist (p.matchings true v) ∧
      (p.isSetFree = true → p.matchings false v = p.matchings true v)) ∧
    ((∃ e t o₁ o₂,
      (o.start false .root).result { allPossibilities := false } (.running []) =
        (.ok (o₁, some e), t) ∧
      (o.start false .root).result { allPossibilities := true } (.running []) =
        (.ok (o₂, some e), t)) ∨
    ∃ ms₁ ms₂ t o₁ o₂,
      (o.start false .root).result { allPossibilities := false } (.running []) =
        (.ok (o₁, none), t) ∧
      (o.start false .root).result { allPossibilities := true } (.running []) =
        (.ok (o₂, none), t) ∧
      o₁.Delivers ms₁ ∧ o₂.Delivers ms₂ ∧ ms₁.Sublist ms₂) := by
  have hbs : ∀ b ∈ bindingsPairs, b.domain.HostSatisfies (Eval.IgnoresOrders {}) := by
    intro b hb
    obtain rfl := List.mem_singleton.mp hb
    trivial
  exact ⟨.fresh, hbs, singleOrder_refines_allOrders .fresh hbs false .root (.running [])⟩

end Odometer

end BoundedLogic
