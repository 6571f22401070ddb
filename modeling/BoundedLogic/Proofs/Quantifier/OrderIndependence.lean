import BoundedLogic.Proofs.Pattern.EqualValues
import BoundedLogic.Proofs.Quantifier.Verdict

set_option relaxedAutoImplicit false
set_option autoImplicit false

/-!
# Independence of the order of enumeration

A quantification scans the combinations of its bindings in an order that depends on the order of the
bindings and on that of the elements in sets. The answer does not. Bindings in another order over
equal literal values have the same combinations, in another order and up to equality of values; so a
predicate that depends on the values of names up to equality is true for as many of them.

This needs that all orders of the elements of a set are tried, or that no pattern takes a set apart:
otherwise a set pattern is matched only with the elements as they are listed.

## Main definitions

* `BoundedLogic.Quantifier.holdsFor` — the answer to a list of truth values.
* `BoundedLogic.Binding.EqualLiterals` — bindings of the same patterns over equal literal values.

## Main results

* `BoundedLogic.Quantifier.contents_combinations_congr` — such bindings, in any order, have the same
  combinations up to order and equality.
* `BoundedLogic.Quantifier.evaluate_order_independent` — the answer of a quantification does not
  depend on the order of enumeration.
-/

namespace BoundedLogic

variable {σ : Type}

/-! ### Answers to Booleans -/

namespace Quantifier

/-- The answer if the predicate has the given truth values on the combinations. -/
def holdsFor : Quantifier → List Bool → Bool
  | .universal, bs => bs.all id
  | .existential, bs => bs.any id
  | .unique, bs => bs.count true == 1

/-- Booleans settle for that answer: a universal quantification ends with the first that is false,
an existential one with the first that is true, and a unique one with the second that is true. -/
lemma answer_map_ok (q : Quantifier) (bs : List Bool) :
    q.answer (bs.map .ok) = .ok (q.holdsFor bs) := by
  cases q with
  | universal =>
    show settle (untilStep true) (bs.map .ok) true = .ok (bs.all id)
    induction bs with
    | nil => rfl
    | cons b bs ih => cases b <;> simp [settle, untilStep, ih]
  | existential =>
    show settle (untilStep false) (bs.map .ok) false = .ok (bs.any id)
    induction bs with
    | nil => rfl
    | cons b bs ih => cases b <;> simp [settle, untilStep, ih]
  | unique =>
    have hcount : ∀ n ≤ 1, (settle uniqueStep (bs.map .ok) n).map (· == 1) =
        .ok (n + bs.count true == 1) := by
      induction bs with
      | nil => simp [settle, Except.map]
      | cons b bs ih =>
        intro n hn
        cases b with
        | false => simpa [settle, uniqueStep, show ¬ 1 < n by omega] using ih n hn
        | true =>
          obtain rfl | rfl : n = 0 ∨ n = 1 := by omega
          · simpa [settle, uniqueStep, Nat.add_comm] using ih 1 (by omega)
          · simp [settle, uniqueStep, Except.map]
    simpa [answer, holdsFor] using hcount 0 (by omega)

/-- The answer does not depend on the order of the truth values. -/
lemma holdsFor_perm (q : Quantifier) {bs cs : List Bool} (h : bs.Perm cs) :
    q.holdsFor bs = q.holdsFor cs := by
  cases q with
  | universal => exact h.all_eq
  | existential => exact h.any_eq
  | unique => rw [holdsFor, holdsFor, h.count_eq]

end Quantifier

/-! ### Literal bindings -/

namespace Binding

/-- Bindings of the same patterns over equal literal values, which can be enumerated. -/
structure EqualLiterals (b b' : Binding σ) : Prop where
  /-- The patterns are the same. -/
  patterns_eq : b.patterns = b'.patterns
  /-- So is the form of the binding. -/
  kind_eq : b.kind = b'.kind
  /-- The domains are not overridden. -/
  not_overridden : b.overridden = none ∧ b'.overridden = none
  /-- The domains are literals of equal values, which fit the form of the binding. -/
  domain_eq : ∃ v v', b.domain = .value v ∧ b'.domain = .value v' ∧ (v == v') = true ∧
    (enumerate? b.kind v).isSome

/-- The values that a binding over a literal draws: none if it has no pattern that asks for them. -/
def literalValues (b : Binding σ) : List Value :=
  if b.patterns.isEmpty then []
  else
    match b.domain with
    | .value v => (enumerate? b.kind v).getD []
    | _ => []

/-- A value without parts cannot be enumerated. -/
lemma enumerate?_of_not_hasParts {v : Value} (hv : v.hasParts = false) (kind : BindingKind) :
    enumerate? kind v = none := by
  cases v with
  | set | seq => cases hv
  | _ => cases kind <;> rfl

/-- Equal values are enumerated with equal values, in some order. -/
lemma exists_enumerate?_of_beq {kind : BindingKind} {v w : Value} (h : (v == w) = true)
    {vs : List Value} (hvs : enumerate? kind v = some vs) :
    ∃ ws, enumerate? kind w = some ws ∧ (vs.map Value.sortKey).Perm (ws.map Value.sortKey) := by
  cases Value.equalParts_of_beq h with
  | @set us ws hperm =>
    cases kind with
    | inSet =>
      obtain rfl := Option.some.inj hvs
      exact ⟨ws, rfl, hperm⟩
    | inSeq | ofType => cases hvs
  | @seq us ws hkeys =>
    cases kind with
    | inSeq =>
      obtain rfl := Option.some.inj hvs
      exact ⟨ws, rfl, .of_eq hkeys⟩
    | inSet | ofType => cases hvs
  | tuple | record => cases kind <;> cases hvs
  | whole hv _ =>
    rw [enumerate?_of_not_hasParts hv] at hvs
    cases hvs

variable {b b' : Binding σ} {bs mid bs' : List (Binding σ)} {allOrders : Bool}

/-- A binding over a literal that can be enumerated draws the literal values. -/
lemma draw_of_literal {v : Value} {vs : List Value} (hb : b.overridden = none)
    (hv : b.domain = .value v) (hvs : enumerate? b.kind v = some vs) (lenient : Bool)
    (env : Context) : b.draw lenient env = pure b.literalValues := by
  rw [draw, literalValues, resolveValues, hb, hv]
  split
  case isTrue => rfl
  case isFalse =>
    simp only [Domain.resolve, pure_bind, hvs]
    rfl

/-- Both of two such bindings draw their literal values. -/
lemma EqualLiterals.draw_eq (h : EqualLiterals b b') (lenient : Bool) (env : Context) :
    b.draw lenient env = pure b.literalValues ∧ b'.draw lenient env = pure b'.literalValues := by
  obtain ⟨v, v', hv, hv', heq, hsome⟩ := h.domain_eq
  obtain ⟨vs, hvs⟩ := Option.isSome_iff_exists.mp hsome
  obtain ⟨ws, hws, -⟩ := exists_enumerate?_of_beq heq hvs
  rw [h.kind_eq] at hws
  exact ⟨draw_of_literal h.not_overridden.1 hv hvs lenient env,
    draw_of_literal h.not_overridden.2 hv' hws lenient env⟩

/-- So do the bindings of two lists of them. -/
lemma draw_eq_of_forall₂ (h : List.Forall₂ EqualLiterals mid bs') (lenient : Bool)
    (env : Context) : (∀ b ∈ mid, b.draw lenient env = pure b.literalValues) ∧
      ∀ b ∈ bs', b.draw lenient env = pure b.literalValues := by
  induction h with
  | nil => simp
  | cons hb _ ih =>
    obtain ⟨hleft, hright⟩ := hb.draw_eq lenient env
    exact ⟨List.forall_mem_cons.mpr ⟨hleft, ih.1⟩, List.forall_mem_cons.mpr ⟨hright, ih.2⟩⟩

/-- These values are equal, in some order. -/
lemma EqualLiterals.literalValues_perm (h : EqualLiterals b b') :
    (b.literalValues.map Value.sortKey).Perm (b'.literalValues.map Value.sortKey) := by
  obtain ⟨v, v', hv, hv', heq, hsome⟩ := h.domain_eq
  obtain ⟨vs, hvs⟩ := Option.isSome_iff_exists.mp hsome
  obtain ⟨ws, hws, hperm⟩ := exists_enumerate?_of_beq heq hvs
  rw [literalValues, literalValues, h.patterns_eq, hv, hv']
  split
  case isTrue => exact .refl _
  case isFalse =>
    dsimp only
    rw [← h.kind_eq, hvs, hws]
    exact hperm

/-- What the patterns find in these values binds the same. -/
lemma EqualLiterals.map_contents_found (h : EqualLiterals b b')
    (hsets : allOrders = true ∨ ∀ p ∈ b.patterns, p.isSetFree = true) :
    (b.found allOrders b.literalValues).map Match.contents =
      (b'.found allOrders b'.literalValues).map Match.contents := by
  rw [found, found, List.map_map, List.map_map, ← h.patterns_eq]
  refine List.map_congr_left fun p hp => ?_
  exact Pattern.contents_flatMap_matchings_congr (hsets.imp_right fun hfree => hfree p hp)
    h.literalValues_perm

/-- **Bindings in another order over equal literals** have the same combinations, each as often, in
another order and up to equality of values.

**Proof sketch.** What the single patterns find binds the same on both sides
(`EqualLiterals.map_contents_found`), pattern by pattern, if the bindings stand in the same order;
and a product does not depend on the order of its factors (`Match.contents_product_perm`). -/
theorem contents_combinations_congr (hperm : bs.Perm mid)
    (hequal : List.Forall₂ EqualLiterals mid bs')
    (hsets : allOrders = true ∨ ∀ b ∈ bs, ∀ p ∈ b.patterns, p.isSetFree = true) :
    Match.contents (combinations allOrders bs (bs.map literalValues)) =
      Match.contents (combinations allOrders bs' (bs'.map literalValues)) := by
  have hsets' : allOrders = true ∨ ∀ b ∈ mid, ∀ p ∈ b.patterns, p.isSetFree = true :=
    hsets.imp_right fun hfree b hb => hfree b (hperm.mem_iff.mpr hb)
  have hpairs : (mid.flatMap fun b => b.found allOrders b.literalValues).map Match.contents =
      (bs'.flatMap fun b => b.found allOrders b.literalValues).map Match.contents := by
    clear hperm hsets
    induction hequal with
    | nil => rfl
    | cons hb _ ih =>
      have hfirst := hsets'.imp_right fun hfree => hfree _ List.mem_cons_self
      have hrest := hsets'.imp_right fun hfree b hb => hfree b (List.mem_cons_of_mem _ hb)
      rw [List.flatMap_cons, List.flatMap_cons, List.map_append, List.map_append,
        hb.map_contents_found hfirst, ih hrest]
  rw [combinations_map, combinations_map]
  refine Match.contents_product_perm ?_
  rw [← hpairs]
  exact (hperm.flatMap_right _).map _

end Binding

/-! ### Predicates that depend on names -/

namespace Quantifier

variable {env : Context} {truth : Context → Bool}

/-- The truth values on the consistent ones of some combinations. -/
def truths (q : Quantifier) (env : Context) (truth : Context → Bool) (ms : List Match) :
    List Bool :=
  ms.filterMap fun m => m.toFrame?.map fun f => truth (env.extend q.keyword f)

/-- These are the outcomes of a predicate that has these truth values. -/
lemma outcomes_eq_map_truths (q : Quantifier) (ms : List Match) :
    q.outcomes env (fun c => .ok (.bool (truth c))) (ms.filterMap Match.toFrame?) =
      (q.truths env truth ms).map .ok := by
  simp only [outcomes, truths, List.map_filterMap, Option.map_map]
  rfl

/-- Combinations that bind the same have the same truth values, each as often, if equal values of
names make for the same truth value.

**Proof sketch.** The truth value of a combination depends on its content only: whether it is
consistent is seen there, and frames of the same content give equal values to the same names. -/
lemma truths_perm (htruth : ∀ c c' : Context, (∀ n, (c.lookup? n == c'.lookup? n) = true) →
      truth c = truth c') (q : Quantifier) {ms ns : List Match}
    (h : Match.contents ms = Match.contents ns) :
    (q.truths env truth ms).Perm (q.truths env truth ns) := by
  refine Match.filterMap_perm_of_contents_eq (fun m n hmn => ?_) h
  have hsome : m.toFrame?.isSome = n.toFrame?.isSome := by
    show m.isConsistent = n.isConsistent
    rw [Bool.eq_iff_iff, Match.isConsistent_iff_unambiguous, Match.isConsistent_iff_unambiguous,
      hmn]
  cases hm : m.toFrame? with
  | none =>
    have hn : n.toFrame? = none := by simpa [hm] using hsome
    rw [hn]
  | some f =>
    rw [hm, Option.isSome_some] at hsome
    obtain ⟨g, hn⟩ := Option.isSome_iff_exists.mp hsome.symm
    rw [hn, Option.map_some, Option.map_some]
    refine congrArg some (htruth _ _ fun name => ?_)
    rw [Value.option_beq_iff, Context.lookup?_extend, Context.lookup?_extend, Option.map_or,
      Option.map_or, Match.get?_congr_of_content_eq hmn hm hn]

/-- A quantification over bindings that draw their literal values, and over a predicate that is a
truth value of the context, gives the answer to the truth values on its combinations. -/
lemma fst_result_evaluate_of_truth (q : Quantifier) {bs : List (Binding σ)}
    {config : EngineConfig} {p : Context → Eval σ Value} {s : Session σ}
    (hbs : ∀ b ∈ bs, b.draw config.allowUnresolved env = pure b.literalValues)
    (hp : Eval.Determined config p fun c => .ok (.bool (truth c)))
    (hs : s.interrupter.level = .running) :
    ((q.evaluate bs p env).result config s).1 = .ok (q.holdsFor (q.truths env truth
      (Binding.combinations config.allPossibilities bs (bs.map Binding.literalValues)))) := by
  have hresolve : (Binding.resolveEach config.allowUnresolved env bs).result config s =
      (.ok (bs.map Binding.literalValues), s) := by
    rw [Binding.resolveEach_of_draw_eq hbs]
    rfl
  rw [fst_result_evaluate_of_determined q bs hp hresolve hs, Binding.frames,
    outcomes_eq_map_truths, answer_map_ok]

/-- **The answer does not depend on the order of enumeration.** Let the bindings of two
quantifications of one kind have the same patterns over equal literals, those of one in any other
order than those of the other; and let all orders of the elements of a set be tried, or no pattern
take a set apart. If the predicate is a truth value that depends on the values of names up to
equality, and the interrupter runs, then both quantifications succeed, and with the same answer.

**Proof sketch.** Both have the same combinations up to order and equality
(`Binding.contents_combinations_congr`), so the predicate has the same truth values on them, each as
often (`truths_perm`), and the answer to these does not depend on their order (`holdsFor_perm`). -/
theorem evaluate_order_independent (q : Quantifier) {bs mid bs' : List (Binding σ)}
    {config : EngineConfig} {p : Context → Eval σ Value} {s s' : Session σ}
    (hperm : bs.Perm mid) (hequal : List.Forall₂ Binding.EqualLiterals mid bs')
    (hsets : config.allPossibilities = true ∨
      ∀ b ∈ bs, ∀ p ∈ b.patterns, p.isSetFree = true)
    (hp : Eval.Determined config p fun c => .ok (.bool (truth c)))
    (htruth : ∀ c c' : Context, (∀ n, (c.lookup? n == c'.lookup? n) = true) → truth c = truth c')
    (hs : s.interrupter.level = .running) (hs' : s'.interrupter.level = .running) :
    ∃ answer, ((q.evaluate bs p env).result config s).1 = .ok answer ∧
      ((q.evaluate bs' p env).result config s').1 = .ok answer := by
  obtain ⟨hmid, hbs'⟩ := Binding.draw_eq_of_forall₂ hequal config.allowUnresolved env
  have hbs : ∀ b ∈ bs, b.draw config.allowUnresolved env = pure b.literalValues :=
    fun b hb => hmid b (hperm.mem_iff.mp hb)
  have hcontents := Binding.contents_combinations_congr hperm hequal hsets
  refine ⟨_, fst_result_evaluate_of_truth q hbs hp hs, ?_⟩
  rw [fst_result_evaluate_of_truth q hbs' hp hs', holdsFor_perm q (truths_perm htruth q hcontents)]

/-- Do `x` and `y` have equal values, or none? -/
def equalXY (env : Context) : Bool :=
  env.lookup? "x" == env.lookup? "y"

/-- The binding `x in set {1, 2}`. -/
def xInOneTwo : Binding Unit where
  patterns := [.name "x"]
  kind := .inSet
  domain := .value (.set [.int 1, .int 2])

/-- The binding `x in set {2, 1.0}`. -/
def xInTwoOne : Binding Unit where
  patterns := [.name "x"]
  kind := .inSet
  domain := .value (.set [.int 2, .real ⟨0x3ff0000000000000⟩])

/-- The quantification `exists1 x in set {1, 2}, y in set {2, 3} & x = y` has the same answer as
that with the bindings exchanged and with `x in set {2, 1.0}`. -/
theorem evaluate_order_independent_equalXY :
    [xInOneTwo, .overIntegers ["y"] [2, 3]].Perm [.overIntegers ["y"] [2, 3], xInOneTwo] ∧
    List.Forall₂ Binding.EqualLiterals [.overIntegers ["y"] [2, 3], xInOneTwo]
      [.overIntegers ["y"] [2, 3], xInTwoOne] ∧
    (∀ c c' : Context, (∀ n, (c.lookup? n == c'.lookup? n) = true) → equalXY c = equalXY c') ∧
    ∃ answer,
      ((unique.evaluate [xInOneTwo, .overIntegers ["y"] [2, 3]]
        (fun c => pure (.bool (equalXY c))) .root).result {} (.running [])).1 = .ok answer ∧
      ((unique.evaluate [.overIntegers ["y"] [2, 3], xInTwoOne]
        (fun c => pure (.bool (equalXY c))) .root).result {} (.running [])).1 = .ok answer := by
  have hperm : [xInOneTwo, .overIntegers ["y"] [2, 3]].Perm
      [.overIntegers ["y"] [2, 3], xInOneTwo] := .swap _ _ _
  have hequal : List.Forall₂ Binding.EqualLiterals [.overIntegers ["y"] [2, 3], xInOneTwo]
      [.overIntegers ["y"] [2, 3], xInTwoOne] := by
    have hx : (Value.set [.int 1, .int 2] == Value.set [.int 2, .real ⟨0x3ff0000000000000⟩]) = true :=
      Value.set_beq_set_iff.mpr (by decide +kernel)
    exact .cons ⟨rfl, rfl, ⟨rfl, rfl⟩, _, _, rfl, rfl, BEq.rfl, rfl⟩
      (.cons ⟨rfl, rfl, ⟨rfl, rfl⟩, _, _, rfl, rfl, hx, rfl⟩ .nil)
  have htruth : ∀ c c' : Context, (∀ n, (c.lookup? n == c'.lookup? n) = true) →
      equalXY c = equalXY c' := by
    intro c c' h
    have hx := Value.option_beq_iff.mp (h "x")
    have hy := Value.option_beq_iff.mp (h "y")
    rw [equalXY, equalXY, Bool.eq_iff_iff, Value.option_beq_iff, Value.option_beq_iff, hx, hy]
  exact ⟨hperm, hequal, htruth, evaluate_order_independent .unique hperm hequal (.inr (by decide))
    ⟨fun _ _ _ => rfl, fun _ _ h => h⟩ htruth rfl rfl⟩

end Quantifier

end BoundedLogic
