import BoundedLogic.Proofs.DefaultRange.Ranges
import BoundedLogic.Proofs.Pattern.Declarative
import BoundedLogic.Proofs.Quantifier.Calls
import BoundedLogic.Proofs.Quantifier.Merging

set_option relaxedAutoImplicit false
set_option autoImplicit false

/-!
# The engine makes well-formed values

A domain makes new sets of old values: subsets, the keys and the values of a map, integers. A
pattern takes values apart, and a quantification hands the pieces to its predicate. If the values
that come from outside are well-formed (literals, overriding sets, the values of names and what the
host computes), then so are all of these, at any depth of domains and quantifications. So wherever
the engine puts values into a set without comparing them, they are pairwise unequal.

## Main definitions

* `BoundedLogic.Eval.Returns` — a property of what an evaluation returns.
* `BoundedLogic.Domain.WellFormed`, `BoundedLogic.Binding.WellFormed` — what comes from outside is
  well-formed.
* `BoundedLogic.UncheckedAdditions` — what is put into sets without being compared is unequal to
  what is there, in all places where that is done.

## Main results

* `BoundedLogic.engine_makes_wellFormed` — all values that the engine makes are well-formed.
-/

namespace BoundedLogic

variable {σ α β γ : Type}

/-! ### What an evaluation returns -/

namespace Eval

/-- Whatever the evaluation returns, under any configuration and from any session, has the
property. -/
def Returns (P : α → Prop) (x : Eval σ α) : Prop :=
  ∀ config s a t, x.result config s = (.ok a, t) → P a

variable {P : α → Prop} {Q : β → Prop}

lemma returns_pure {a : α} (h : P a) : (pure a : Eval σ α).Returns P := by
  intro config s a' t hresult
  cases hresult
  exact h

lemma returns_throw (e : EvalError) : (throw e : Eval σ α).Returns P := by
  intro config s a t hresult
  cases hresult

lemma returns_onSession {x : StateM (Session σ) α} (h : ∀ s, P (x.run s).1) :
    (onSession x : Eval σ α).Returns P := by
  intro config s a t hresult
  cases hresult
  exact h s

lemma Returns.bind {x : Eval σ α} {f : α → Eval σ β} (hx : x.Returns P)
    (hf : ∀ a, P a → (f a).Returns Q) : (x >>= f).Returns Q := by
  intro config s b t hresult
  obtain ⟨a, u, ha, hb⟩ := result_bind_eq_ok_iff.mp hresult
  exact hf a (hx config s a u ha) config u b t hb

end Eval

/-- Subsets that are enumerated are put into a set. -/
lemma run_powerSet_of_ok {stop : StateM (Session σ) Bool} {vs parts : ValueSet} {limit : Nat}
    {s t : Session σ} (h : (powerSet stop vs limit).run.run s = (.ok parts, t)) :
    parts = .ofDistinct (vs.pickedSubsets.map .set) := by
  rw [run_powerSet] at h
  rcases hsubsets : (subsets stop vs.elements limit).run.run s with ⟨e | lists, u⟩ <;>
    rw [hsubsets] at h
  · cases h
  · cases h
    rw [(run_subsets_of_ok hsubsets).1]
    rfl

/-! ### Domains and bindings -/

namespace Domain

/-- The literals in the domain are well-formed, and so is what the host computes for it among
well-formed values. -/
def WellFormed : Domain σ → Prop
  | .value v => v.WellFormed
  | .name _ => True
  | .range _ _ => True
  | .power d => d.WellFormed
  | .dom d => d.WellFormed
  | .rng d => d.WellFormed
  | .type _ => True
  | .computed _ run => ∀ env, env.WellFormed → (run env).Returns Value.WellFormed

/-- The integers between two of 64 bits. -/
lemma distinct_integersBetween_int64 (lo hi : Int64) :
    Value.Distinct (integersBetween lo.toInt hi.toInt) :=
  distinct_integersBetween lo.le_toInt hi.toInt_lt

lemma returns_evalPowerSet {s : ValueSet} (h : s.WellFormed) :
    (evalPowerSet s : Eval σ ValueSet).Returns ValueSet.WellFormed := by
  -- nothing is known of the configuration that is asked for
  refine Eval.Returns.bind (P := fun _ => True) (fun _ _ _ _ _ => trivial) fun config _ => ?_
  refine Eval.Returns.bind (P := fun outcome => ∀ parts, outcome = .ok parts → parts.WellFormed)
    (Eval.returns_onSession fun s parts hparts => ?_) fun outcome houtcome => ?_
  · rw [run_powerSet_of_ok (Prod.ext hparts rfl)]
    exact h.subsets
  · cases outcome with
    | ok parts => exact Eval.returns_pure (houtcome parts rfl)
    | error e => exact Eval.returns_throw _

/-- **The value of a domain** is well-formed if what comes from outside is.

**Proof sketch.** Induction on the domain: subsets, keys and values are taken from the well-formed
value of the domain inside. -/
theorem WellFormed.returns_resolve {d : Domain σ} (h : d.WellFormed) {env : Context}
    (henv : env.WellFormed) (lenient : Bool) :
    (d.resolve lenient env).Returns fun found => ∀ v ∈ found, v.WellFormed := by
  have hsome : ∀ {v : Value}, v.WellFormed → ∀ w ∈ some v, w.WellFormed := by
    rintro v hv w ⟨⟩
    exact hv
  have hnone : ∀ v ∈ (none : Option Value), v.WellFormed := by
    rintro v ⟨⟩
  induction d with
  | value v => exact Eval.returns_pure (hsome h)
  | name n =>
    rw [resolve]
    split
    case h_1 v hv => exact Eval.returns_pure (hsome (henv.of_lookup? hv))
    case h_2 =>
      split
      case isTrue => exact Eval.returns_pure hnone
      case isFalse => exact Eval.returns_throw _
  | range lo hi =>
    refine Eval.returns_pure (hsome (Value.wellFormed_set_iff.mpr
      ⟨distinct_integersBetween_int64 lo hi, fun v hv => ?_⟩))
    obtain ⟨i, rfl, -⟩ := (mem_integersBetween_iff lo.le_toInt hi.toInt_lt).mp hv
    exact Value.wellFormed_int i
  | power d ih =>
    refine (ih h).bind fun found hfound => ?_
    split
    case h_1 => exact Eval.returns_pure hnone
    case h_2 vs =>
      have hvs := ValueSet.wellFormed_ofDistinct_iff.mpr (hfound _ rfl)
      exact (returns_evalPowerSet hvs).bind fun parts hparts =>
        Eval.returns_pure (hsome hparts.toValue)
    case h_3 => exact Eval.returns_throw _
  | dom d ih =>
    refine (ih h).bind fun found hfound => ?_
    split
    case h_1 => exact Eval.returns_pure hnone
    case h_2 es =>
      exact Eval.returns_pure (hsome (ValueMap.wellFormed_dom (hfound _ rfl)).toValue)
    case h_3 => exact Eval.returns_throw _
  | rng d ih =>
    refine (ih h).bind fun found hfound => ?_
    split
    case h_1 => exact Eval.returns_pure hnone
    case h_2 es =>
      exact Eval.returns_pure (hsome (ValueMap.wellFormed_rng (hfound _ rfl)).toValue)
    case h_3 => exact Eval.returns_throw _
  | type t => exact Eval.returns_throw _
  | computed label run => exact (h env henv).bind fun v hv => Eval.returns_pure (hsome hv)

end Domain

namespace Binding

/-- The domain is well-formed, and so is the set that stands in for it. -/
structure WellFormed (b : Binding σ) : Prop where
  /-- What comes from outside in the domain is well-formed. -/
  domain : b.domain.WellFormed
  /-- The overriding set is well-formed. -/
  overridden : ∀ values ∈ b.overridden, values.toValue.WellFormed

variable {env : Context} {b : Binding σ} {bs : List (Binding σ)}

/-- **The values of a binding** are well-formed. -/
theorem WellFormed.returns_resolveValues (h : b.WellFormed) (henv : env.WellFormed)
    (lenient : Bool) :
    (b.resolveValues lenient env).Returns fun vs => ∀ v ∈ vs, v.WellFormed := by
  rw [resolveValues]
  split
  case h_1 values hvalues =>
    exact Eval.returns_pure (Value.wellFormed_set_iff.mp (h.overridden values hvalues)).2
  case h_2 =>
    refine (h.domain.returns_resolve henv lenient).bind fun found hfound => ?_
    split
    case h_1 => exact Eval.returns_pure fun v hv => by cases hv
    case h_2 v =>
      split
      case h_1 vs hvs =>
        refine Eval.returns_pure fun w hw => (hfound v rfl).of_mem_parts ?_
        unfold enumerate? at hvs
        split at hvs <;> cases hvs <;> exact hw
      case h_2 => exact Eval.returns_throw _

lemma WellFormed.returns_draw (h : b.WellFormed) (henv : env.WellFormed) (lenient : Bool) :
    (b.draw lenient env).Returns fun vs => ∀ v ∈ vs, v.WellFormed := by
  intro config s vs t hresult
  by_cases hp : b.patterns = []
  · rw [result_draw_of_isEmpty hp] at hresult
    cases hresult
    exact fun v hv => by cases hv
  · exact h.returns_resolveValues henv lenient config s vs t
      ((result_draw_eq_ok_iff hp).mp hresult)

lemma returns_resolveEach (h : ∀ b ∈ bs, b.WellFormed) (henv : env.WellFormed) (lenient : Bool) :
    (resolveEach lenient env bs).Returns fun values =>
      ∀ vs ∈ values, ∀ v ∈ vs, v.WellFormed := by
  induction bs with
  | nil => exact Eval.returns_pure fun vs hvs => by cases hvs
  | cons b bs ih =>
    obtain ⟨hb, hbs⟩ := List.forall_mem_cons.mp h
    refine (hb.returns_draw henv lenient).bind fun vs hvs => (ih hbs).bind fun rest hrest => ?_
    exact Eval.returns_pure (List.forall_mem_cons.mpr ⟨hvs, hrest⟩)

end Binding

/-! ### Patterns -/

namespace Pattern

variable {order : List Value → List Value → Prop}

mutual

/-- A name is bound to the value that is matched or to one inside it, if no elements are invented
when those of a set are taken in some order. -/
lemma Binds.isInside (horder : ∀ ws vs, order ws vs → ws ⊆ vs) {p : Pattern} {v : Value}
    {m : Match} (h : Binds order p v m) : ∀ b ∈ m.pairs, b.2.IsInside v := by
  cases h with
  | name n v =>
    intro b hb
    obtain rfl := List.mem_singleton.mp hb
    exact .refl
  | ignore | literal =>
    intro b hb
    cases hb
  | tuple h | record h | seq h =>
    refine BindsEach.isInside horder h ?_
    exact fun w hw => hw
  | set ho h =>
    refine BindsEach.isInside horder h ?_
    exact fun w hw => horder _ _ ho hw

/-- The same for parts of a value. -/
lemma BindsEach.isInside (horder : ∀ ws vs, order ws vs → ws ⊆ vs) {ps : List Pattern}
    {vs : List Value} {m : Match} (h : BindsEach order ps vs m) {v : Value}
    (hvs : ∀ w ∈ vs, w ∈ v.parts) : ∀ b ∈ m.pairs, b.2.IsInside v := by
  cases h with
  | nil =>
    intro b hb
    cases hb
  | cons h hs =>
    obtain ⟨hw, hws⟩ := List.forall_mem_cons.mp hvs
    intro b hb
    rcases List.mem_append.mp hb with hb | hb
    · exact .head hw (Binds.isInside horder h b hb)
    · exact BindsEach.isInside horder hs hws b hb

end

/-- **The values in a match** are well-formed if the value that is matched is. -/
theorem wellFormed_of_mem_matchings {allOrders : Bool} {p : Pattern} {v : Value}
    (hv : v.WellFormed) {m : Match} (hm : m ∈ p.matchings allOrders v) : m.WellFormed := by
  intro b hb
  have hinside : b.2.IsInside v := by
    cases allOrders with
    | true =>
      exact ((matchesWhatItBinds tries_perm p v m).mp hm).1.isInside
        (fun ws vs hperm => hperm.subset) b hb
    | false =>
      refine ((matchesWhatItBinds tries_eq p v m).mp hm).1.isInside (fun ws vs heq => ?_) b hb
      rw [heq]
      exact List.Subset.refl vs
  exact hv.of_isInside hinside

end Pattern

/-! ### Frames -/

namespace Binding

/-- The combinations of bindings over well-formed values bind well-formed values. -/
lemma wellFormed_of_mem_combinations {allOrders : Bool} {bs : List (Binding σ)}
    {values : List (List Value)} (hvalues : ∀ vs ∈ values, ∀ v ∈ vs, v.WellFormed) {m : Match}
    (hm : m ∈ combinations allOrders bs values) : m.WellFormed := by
  intro b hb
  obtain ⟨ms, hms, n, hn, hbn⟩ := Match.exists_mem_pairs_of_mem_product hm hb
  obtain ⟨found, hfound, hms⟩ := List.mem_flatten.mp hms
  rw [← List.map_uncurry_zip_eq_zipWith] at hfound
  obtain ⟨⟨b, vs⟩, hzip, rfl⟩ := List.mem_map.mp hfound
  obtain ⟨p, -, rfl⟩ := List.mem_map.mp hms
  obtain ⟨v, hv, hmatch⟩ := List.mem_flatMap.mp hn
  have hwell := hvalues vs (List.of_mem_zip hzip).2 v hv
  exact Pattern.wellFormed_of_mem_matchings hwell hmatch _ hbn

end Binding

namespace Quantifier

variable {q : Quantifier} {env : Context} {p : Context → Eval σ Value} {config : EngineConfig}
  {contribution : Frame → Session σ → List γ}

/-- What a call contributes to the trace of a scan belongs to the frame of a combination. -/
lemma exists_of_mem_traceFrom {visit : β → Bool → Frame → Eval σ (ForInStep β)} {ms : List Match}
    {acc : β} {s : Session σ} {x : γ}
    (h : x ∈ traceFrom config q env p visit contribution ms acc s) :
    ∃ m ∈ ms, ∃ f t, m.toFrame? = some f ∧ x ∈ contribution f t := by
  induction ms generalizing acc s with
  | nil => cases h
  | cons m ms ih =>
    have hlater : ∀ {acc s}, x ∈ traceFrom config q env p visit contribution ms acc s →
        ∃ n ∈ m :: ms, ∃ f t, n.toFrame? = some f ∧ x ∈ contribution f t := by
      intro acc s h
      obtain ⟨n, hn, hrest⟩ := ih h
      exact ⟨n, List.mem_cons_of_mem m hn, hrest⟩
    cases hs : s.interrupter.terminateRequested with
    | true =>
      rw [traceFrom_of_terminating hs] at h
      cases h
    | false =>
      cases hm : m.toFrame? with
      | none =>
        rw [traceFrom_of_none hs hm] at h
        exact hlater h
      | some f =>
        rw [traceFrom_of_some hs hm] at h
        rcases List.mem_append.mp h with h | h
        · exact ⟨m, List.mem_cons_self, f, s, hm, h⟩
        · split at h
          case h_1 => exact hlater h
          case h_2 => cases h

/-- **The frames of a quantification** bind well-formed values: what a call contributes to its trace
belongs to such a frame. -/
theorem exists_wellFormed_of_mem_trace {bs : List (Binding σ)} (hbs : ∀ b ∈ bs, b.WellFormed)
    (henv : env.WellFormed) {s : Session σ} {x : γ}
    (h : x ∈ q.trace config bs p env contribution s) :
    ∃ f : Frame, ∃ t, f.WellFormed ∧ x ∈ contribution f t := by
  rw [trace] at h
  split at h
  case h_1 values t hvalues =>
    have hwell := Binding.returns_resolveEach hbs henv _ _ _ _ _ hvalues
    obtain ⟨m, hm, f, u, hf, hx⟩ := exists_of_mem_traceFrom h
    have hmatch := Binding.wellFormed_of_mem_combinations hwell hm
    exact ⟨f, u, Match.wellFormed_of_toFrame? hmatch hf, hx⟩
  case h_2 => cases h

end Quantifier

/-- The contexts in which a nest of quantifications calls its predicates bind well-formed values.

**Proof sketch.** Induction on the nest: each quantification adds a scope with a well-formed
frame. -/
theorem Predicate.wellFormed_of_mem_leafCalls {config : EngineConfig} :
    ∀ {p : Predicate σ}, (∀ b ∈ p.bindings, b.WellFormed) → ∀ {env : Context}, env.WellFormed →
      ∀ {s : Session σ}, ∀ env' ∈ p.leafCalls config env s, env'.WellFormed
  | .host _, _, env, henv, _, env', h => List.mem_singleton.mp h ▸ henv
  | .compound _ _, _, env, henv, _, env', h => List.mem_singleton.mp h ▸ henv
  | .shared p, hp, env, henv, _, env', h => wellFormed_of_mem_leafCalls (p := p) hp henv env' h
  | .quantified q bs body, hp, env, henv, s, env', h => by
    have hbs : ∀ b ∈ bs, b.WellFormed := fun b hb => hp b (List.mem_append_left _ hb)
    have hbody : ∀ b ∈ body.bindings, b.WellFormed := fun b hb => hp b (List.mem_append_right _ hb)
    obtain ⟨f, t, hf, hcall⟩ := Quantifier.exists_wellFormed_of_mem_trace hbs henv h
    exact wellFormed_of_mem_leafCalls hbody (henv.extend q.keyword hf) env' hcall

/-! ### All of the engine -/

/-- Wherever the engine puts values into a set without comparing them, each is unequal to those that
are there. -/
structure UncheckedAdditions (σ : Type) : Prop where
  /-- The elements of a subset. -/
  subset : ∀ vs, (Value.set vs).WellFormed → ∀ k, Value.Distinct (pickBits vs k)
  /-- The subsets of a set, however the enumeration is asked to go on. -/
  subsets : ∀ (stop : StateM (Session σ) Bool) vs limit s parts t, (Value.set vs).WellFormed →
    (BoundedLogic.subsets stop vs limit).run.run s = (.ok parts, t) →
      Value.Distinct (parts.map .set)
  /-- The elements of a set in some order. -/
  ordering : ∀ vs, (Value.set vs).WellFormed → ∀ ws ∈ orderings vs, Value.Distinct ws
  /-- The keys of a map. -/
  keys : ∀ es, (Value.map es).WellFormed → Value.Distinct (es.map Prod.fst)
  /-- A range of integers of 64 bits. -/
  integers : ∀ lo hi : Int64, Value.Distinct (Domain.integersBetween lo.toInt hi.toInt)
  /-- The tuples in the default range of a product. -/
  tuples : ∀ (c : CheckerConfig) ts tuples, c.productTuples [[]] ts = .ok tuples →
    Value.Distinct (tuples.map .tuple)
  /-- The sets in the default range of a type of sets. -/
  sets : ∀ (c : CheckerConfig) t range parts, c.defaultRange t = .ok range →
    c.rangeSubsets range = .ok parts → Value.Distinct (parts.map .set)
  /-- The sequences in the default range of a type of sequences. -/
  sequences : ∀ (c : CheckerConfig) t range parts, c.defaultRange t = .ok range →
    c.rangeSubsets range = .ok parts → Value.Distinct ((parts.flatMap orderings).map .seq)

/-- **What is added without a look** is not there yet, in all places. -/
theorem uncheckedAdditions (σ : Type) : UncheckedAdditions σ where
  subset vs hvs k := (Value.wellFormed_set_iff.mp hvs).1.sublist (pickBits_sublist vs k)
  subsets stop vs limit s parts t hvs hparts := by
    rw [(run_subsets_of_ok hparts).1]
    exact (ValueSet.wellFormed_ofDistinct_iff.mpr hvs).isValid.distinct_subsets
  ordering vs hvs ws hws :=
    (Value.wellFormed_set_iff.mp hvs).1.of_perm (mem_orderings_iff.mp hws).symm
  keys es hes := (Value.wellFormed_map_iff.mp hes).1.distinct
  integers := Domain.distinct_integersBetween_int64
  tuples c ts tuples htuples := by
    obtain ⟨ranges, hranges, rfl⟩ := CheckerConfig.productTuples_eq_ok_iff.mp htuples
    refine (CheckerConfig.wellFormed_tuples fun r hr => ?_).isValid.distinct
    obtain ⟨t, -, hrange⟩ := exists_of_mem_of_forall₂ hranges hr
    exact CheckerConfig.wellFormed_of_defaultRange hrange
  sets c t range parts hrange hparts := by
    obtain ⟨-, rfl⟩ := CheckerConfig.rangeSubsets_eq_ok_iff.mp hparts
    exact (CheckerConfig.wellFormed_of_defaultRange hrange).isValid.distinct_subsets
  sequences c t range parts hrange hparts := by
    obtain ⟨-, rfl⟩ := CheckerConfig.rangeSubsets_eq_ok_iff.mp hparts
    exact (CheckerConfig.wellFormed_of_defaultRange hrange).isValid.distinct_orderings

/-- **The engine makes well-formed values**, among well-formed values, under any configuration and
from any session. If what comes from outside is well-formed, then so are

* the value of a domain of any depth, and the values of a binding;
* the default range of a type of any depth, and the set of the subsets of a set;
* the values in every way to match a pattern, in every frame on which a quantification calls its
  predicate, and in every context in which a nest of quantifications calls the predicates of the
  host.

And wherever values are put into a set without being compared, each is unequal to those that are
there. -/
theorem engine_makes_wellFormed {env : Context} (henv : env.WellFormed) :
    (∀ lenient (d : Domain σ), d.WellFormed →
      (d.resolve lenient env).Returns fun found => ∀ v ∈ found, v.WellFormed) ∧
    (∀ lenient (b : Binding σ), b.WellFormed →
      (b.resolveValues lenient env).Returns fun vs => ∀ v ∈ vs, v.WellFormed) ∧
    (∀ (c : CheckerConfig) t range, c.defaultRange t = .ok range → range.WellFormed) ∧
    (∀ (stop : StateM (Session σ) Bool) (vs : ValueSet) limit s parts t, vs.WellFormed →
      (powerSet stop vs limit).run.run s = (.ok parts, t) → parts.WellFormed) ∧
    (∀ allOrders (p : Pattern) v, v.WellFormed → ∀ m ∈ p.matchings allOrders v, m.WellFormed) ∧
    (∀ config (q : Quantifier) (bs : List (Binding σ)) p s, (∀ b ∈ bs, b.WellFormed) →
      ∀ f ∈ q.frames config bs p env s, f.WellFormed) ∧
    (∀ config (p : Predicate σ) s, (∀ b ∈ p.bindings, b.WellFormed) →
      ∀ env' ∈ p.leafCalls config env s, env'.WellFormed) ∧
    UncheckedAdditions σ := by
  refine ⟨fun lenient d hd => hd.returns_resolve henv lenient,
    fun lenient b hb => hb.returns_resolveValues henv lenient,
    fun c t range hrange => CheckerConfig.wellFormed_of_defaultRange hrange, ?_,
    fun allOrders p v hv m hm => Pattern.wellFormed_of_mem_matchings hv hm, ?_,
    fun config p s hp env' hcall => Predicate.wellFormed_of_mem_leafCalls hp henv env' hcall,
    uncheckedAdditions σ⟩
  · intro stop vs limit s parts t hvs hparts
    rw [run_powerSet_of_ok hparts]
    exact hvs.subsets
  · intro config q bs p s hbs f hf
    obtain ⟨g, t, hg, hfg⟩ := Quantifier.exists_wellFormed_of_mem_trace hbs henv hf
    exact List.mem_singleton.mp hfg ▸ hg

/-- The subsets of `S`, which is `{2, 1.0}`. -/
theorem engine_makes_wellFormed_powerS :
    let env := Context.withFrame "global"
      ⟨[("S", .set [.int 2, .real ⟨0x3ff0000000000000⟩])]⟩
    let power : Domain Unit := .power (.name "S")
    let found : Value := .set [.set [], .set [.int 2], .set [.real ⟨0x3ff0000000000000⟩],
      .set [.int 2, .real ⟨0x3ff0000000000000⟩]]
    env.WellFormed ∧ power.WellFormed ∧
      (power.resolve false env).result {} (Session.running []) =
        (.ok (some found), Session.running []) ∧ found.WellFormed := by
  intro env power found
  have henv : env.WellFormed := by
    refine Context.wellFormed_withFrame (List.forall_mem_singleton.mpr ?_)
    refine Value.wellFormed_set_iff.mpr ⟨?_, by simp⟩
    rw [Value.Distinct]
    decide +kernel
  have hresult : (power.resolve false env).result {} (Session.running []) =
      (.ok (some found), Session.running []) := rfl
  refine ⟨henv, trivial, hresult, ?_⟩
  exact (engine_makes_wellFormed henv).1 false power trivial _ _ _ _ hresult found rfl

end BoundedLogic
