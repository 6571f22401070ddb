import BoundedLogic.Evaluation.Predicate
import BoundedLogic.Proofs.Quantifier.Scan

set_option relaxedAutoImplicit false
set_option autoImplicit false

/-!
# Changing the bindings of a predicate

The bindings that can be changed from outside are changed one by one, at every depth. One change
after another is a single change, and what is left as it is everywhere leaves the predicate as it
is.

A quantification knows its bindings by their patterns and by the values they draw. Bindings that
agree in both can stand for each other, at every depth, and no evaluation tells the difference.

## Main definitions

* `BoundedLogic.Binding.Interchangeable` — bindings with the same patterns and the same values.

## Main results

* `BoundedLogic.Predicate.mapBindings_mapBindings`, `BoundedLogic.Predicate.mapBindings_eq_self` —
  changing bindings twice, and not at all.
* `BoundedLogic.Quantifier.evaluate_congr`, `BoundedLogic.Predicate.evaluate_mapBindings_congr` —
  exchanging bindings.
-/

namespace BoundedLogic

variable {σ : Type}

/-! ### One change after another -/

namespace Predicate

mutual

/-- Changing the bindings of a predicate twice is changing them once. -/
lemma mapBindings_mapBindings (f g : Binding σ → Binding σ) :
    ∀ p : Predicate σ, (p.mapBindings f).mapBindings g = p.mapBindings (g ∘ f)
  | .host _ => rfl
  | .quantified q bs body => by
    simp only [mapBindings, List.map_map, mapBindings_mapBindings f g body]
  | .compound parts run => by
    simp only [mapBindings, mapListBindings_mapListBindings f g parts]
  | .shared _ => rfl

/-- The same for a list of predicates. -/
lemma mapListBindings_mapListBindings (f g : Binding σ → Binding σ) :
    ∀ ps : List (Predicate σ),
      mapListBindings g (mapListBindings f ps) = mapListBindings (g ∘ f) ps
  | [] => rfl
  | p :: ps => by
    simp only [mapListBindings, mapBindings_mapBindings f g p,
      mapListBindings_mapListBindings f g ps]

end

mutual

/-- What leaves every binding that can be changed as it is leaves the predicate as it is. -/
lemma mapBindings_eq_self {f : Binding σ → Binding σ} :
    ∀ {p : Predicate σ}, (∀ b ∈ p.reachableBindings, f b = b) → p.mapBindings f = p
  | .host _, _ => rfl
  | .quantified q bs body, h => by
    obtain ⟨hbs, hbody⟩ := List.forall_mem_append.mp h
    rw [mapBindings, List.map_congr_left hbs, List.map_id', mapBindings_eq_self hbody]
  | .compound parts run, h => by rw [mapBindings, mapListBindings_eq_self h]
  | .shared _, _ => rfl

/-- The same for a list of predicates. -/
lemma mapListBindings_eq_self {f : Binding σ → Binding σ} :
    ∀ {ps : List (Predicate σ)},
      (∀ b ∈ listReachableBindings ps, f b = b) → mapListBindings f ps = ps
  | [], _ => rfl
  | p :: ps, h => by
    obtain ⟨hp, hps⟩ := List.forall_mem_append.mp h
    rw [mapListBindings, mapBindings_eq_self hp, mapListBindings_eq_self hps]

end

end Predicate

/-! ### Bindings that can stand for each other -/

namespace Binding

/-- The bindings have the same patterns and draw the same values, or fail alike. -/
structure Interchangeable (b b' : Binding σ) : Prop where
  /-- The patterns are the same. -/
  patterns_eq : b.patterns = b'.patterns
  /-- So are the values, and how working them out fails. -/
  draw_eq : ∀ lenient env, b.draw lenient env = b'.draw lenient env

/-- A binding can stand for itself. -/
lemma Interchangeable.refl (b : Binding σ) : Interchangeable b b :=
  ⟨rfl, fun _ _ => rfl⟩

/-- What makes interchangeable bindings of every binding does so one by one in a list. -/
lemma forall₂_interchangeable_map {f g : Binding σ → Binding σ}
    (h : ∀ b, Interchangeable (f b) (g b)) (bs : List (Binding σ)) :
    List.Forall₂ Interchangeable (bs.map f) (bs.map g) := by
  rw [List.forall₂_map_left_iff, List.forall₂_map_right_iff]
  exact List.forall₂_same.mpr fun b _ => h b

/-- Two bindings whose values are given can stand for each other if patterns and values are the
same. Their texts may differ, as no failure is reported for them. -/
lemma Interchangeable.of_values {b b' : Binding σ} (hpatterns : b.patterns = b'.patterns)
    {values : List Value} (h : ∀ lenient env, b.resolveValues lenient env = pure values)
    (h' : ∀ lenient env, b'.resolveValues lenient env = pure values) : Interchangeable b b' := by
  refine ⟨hpatterns, fun lenient env => ?_⟩
  rw [draw, draw, h, h', hpatterns]
  rfl

variable {bs bs' : List (Binding σ)}

/-- Working out bindings, or others in their place. -/
lemma resolveEach_congr (h : List.Forall₂ Interchangeable bs bs') (lenient : Bool)
    (env : Context) : resolveEach lenient env bs = resolveEach lenient env bs' := by
  induction h with
  | nil => rfl
  | cons hb _ ih => rw [resolveEach, resolveEach, hb.draw_eq, ih]

/-- The combinations of bindings, or of others in their place. -/
lemma combinations_congr (h : List.Forall₂ Interchangeable bs bs') (allOrders : Bool)
    (values : List (List Value)) :
    combinations allOrders bs values = combinations allOrders bs' values := by
  have hfound : List.zipWith (found allOrders) bs values =
      List.zipWith (found allOrders) bs' values := by
    induction h generalizing values with
    | nil => rfl
    | cons hb _ ih =>
      cases values with
      | nil => rfl
      | cons vs values => rw [List.zipWith_cons_cons, List.zipWith_cons_cons, ih, found, found,
          hb.patterns_eq]
  rw [combinations, combinations, hfound]

end Binding

namespace Quantifier

variable {β : Type} {bs bs' : List (Binding σ)} {p : Context → Eval σ Value}

/-- A scan over bindings, or over others in their place. -/
lemma scan_congr (h : List.Forall₂ Binding.Interchangeable bs bs') (q : Quantifier) (env : Context)
    (startsClear : Bool) (visit : β → Bool → Frame → Eval σ (ForInStep β)) (acc : β) :
    q.scan bs env p startsClear visit acc = q.scan bs' env p startsClear visit acc := by
  simp only [scan_eq, Binding.resolveEach_congr h, Binding.combinations_congr h]

/-- **Exchanging the bindings** of a quantification does not change its answer, nor what it leaves
in the session. -/
theorem evaluate_congr (h : List.Forall₂ Binding.Interchangeable bs bs') (q : Quantifier)
    (env : Context) : q.evaluate bs p env = q.evaluate bs' p env := by
  cases q <;> simp only [evaluate, scan_congr h]

end Quantifier

namespace Predicate

variable {f g : Binding σ → Binding σ}

mutual

/-- **Exchanging bindings at every depth** of a predicate.

**Proof sketch.** Induction on the predicate. The bindings of a quantification are exchanged by
`Quantifier.evaluate_congr`, and its body evaluates alike. What the host makes of the evaluations of
its parts cannot depend on the bindings in them, as these evaluations are equal. -/
theorem evaluate_mapBindings_congr (h : ∀ b, Binding.Interchangeable (f b) (g b)) :
    ∀ p : Predicate σ, (p.mapBindings f).evaluate = (p.mapBindings g).evaluate
  | .host _ => rfl
  | .quantified q bs body => by
    funext env
    simp only [mapBindings, evaluate, evaluate_mapBindings_congr h body,
      Quantifier.evaluate_congr (Binding.forall₂_interchangeable_map h bs)]
  | .compound parts run => congrArg run (evaluations_mapListBindings_congr h parts)
  | .shared _ => rfl

/-- The same for a list of predicates. -/
lemma evaluations_mapListBindings_congr (h : ∀ b, Binding.Interchangeable (f b) (g b)) :
    ∀ ps : List (Predicate σ),
      evaluations (mapListBindings f ps) = evaluations (mapListBindings g ps)
  | [] => rfl
  | p :: ps => congrArg₂ List.cons (evaluate_mapBindings_congr h p)
      (evaluations_mapListBindings_congr h ps)

end

end Predicate

namespace Quantification

variable (q : Quantification σ)

/-- Changing the bindings of a quantification twice is changing them once. -/
lemma mapBindings_mapBindings (f g : Binding σ → Binding σ) :
    (q.mapBindings f).mapBindings g = q.mapBindings (g ∘ f) := by
  simp only [mapBindings, List.map_map, Predicate.mapBindings_mapBindings]

/-- What leaves every binding that can be changed as it is leaves the quantification as it is. -/
lemma mapBindings_eq_self {f : Binding σ → Binding σ} (h : ∀ b ∈ q.reachableBindings, f b = b) :
    q.mapBindings f = q := by
  obtain ⟨hbs, hbody⟩ := List.forall_mem_append.mp h
  rw [mapBindings, List.map_congr_left hbs, List.map_id', Predicate.mapBindings_eq_self hbody]

/-- Exchanging bindings at every depth of a quantification. -/
lemma evaluate_mapBindings_congr {f g : Binding σ → Binding σ}
    (h : ∀ b, Binding.Interchangeable (f b) (g b)) (env : Context) :
    (q.mapBindings f).evaluate env = (q.mapBindings g).evaluate env := by
  simp only [mapBindings, evaluate, Predicate.evaluate_mapBindings_congr h,
    Quantifier.evaluate_congr (Binding.forall₂_interchangeable_map h q.bindings)]

end Quantification

end BoundedLogic
