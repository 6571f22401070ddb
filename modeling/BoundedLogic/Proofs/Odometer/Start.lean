import BoundedLogic.Proofs.Odometer.Product
import BoundedLogic.Proofs.Session.Results

set_option relaxedAutoImplicit false
set_option autoImplicit false

/-!
# Starting an odometer

An odometer keeps the values of the binding it met last, so that the patterns of one binding share
them. Seen from outside this is simple: the domains are worked out once per binding, from left to
right, and a binding without patterns is passed over. What the patterns then find in the values is
what the wheels hold, whatever they held before. A domain that cannot be worked out ends the start;
by then the wheels of the bindings before it hold what their patterns find.

## Main definitions

* `BoundedLogic.Binding.resolveEach` — the values of several bindings, each worked out once.
* `BoundedLogic.Binding.combinations`, `BoundedLogic.Binding.frames` — the combinations of bindings
  over given values, and the frames of those that are consistent.
* `BoundedLogic.Odometer.freshWheels`, `BoundedLogic.Odometer.loadedWheels` — the wheels of
  bindings, before anything is worked out and with what the patterns find in given values.
* `BoundedLogic.Odometer.fixedParts` — what never changes about wheels.

## Main results

* `BoundedLogic.Odometer.start_of_ok` — once every domain is worked out, the odometer is at the
  first reading of the wheels with what is found in the values.
* `BoundedLogic.Odometer.start_of_error` — the first failure is the failure of the start, and the
  wheels before it are loaded.
* `BoundedLogic.Odometer.exists_values_of_start`, `BoundedLogic.Odometer.exists_loaded_of_start` —
  what a start has done is told by how it ended.
-/

namespace BoundedLogic

namespace Binding

variable {σ : Type}

/-! ### The values of several bindings -/

/-- The values a binding ranges over; a failure is reported for the binding. Without a pattern that
asks for them they are not worked out. -/
def draw (lenient : Bool) (env : Context) (b : Binding σ) : Eval σ (List Value) :=
  if b.patterns.isEmpty then pure []
  else do
    match ← (b.resolveValues lenient env).attempt with
    | .ok values => pure values
    | .error e => throw (e.inBinding b.text)

/-- The values of several bindings, from left to right, each in the same context. -/
def resolveEach (lenient : Bool) (env : Context) : List (Binding σ) → Eval σ (List (List Value))
  | [] => pure []
  | b :: bs => do
    let values ← b.draw lenient env
    let rest ← resolveEach lenient env bs
    pure (values :: rest)

/-- What each pattern of a binding finds in given values. -/
def found (allOrders : Bool) (b : Binding σ) (values : List Value) : List (List Match) :=
  b.patterns.map fun p => values.flatMap (p.matchings allOrders)

/-- The combinations of several bindings over given values: one match for each pattern, the last
pattern fastest. -/
def combinations (allOrders : Bool) (bs : List (Binding σ)) (values : List (List Value)) :
    List Match :=
  Match.product (List.zipWith (found allOrders) bs values).flatten

/-- The frames of these combinations, in order. Those that give a name two unequal values have
none. -/
def frames (allOrders : Bool) (bs : List (Binding σ)) (values : List (List Value)) : List Frame :=
  (combinations allOrders bs values).filterMap Match.toFrame?

/-- A binding of names to integers, as in `x, y in set {1, 2}`. -/
def overIntegers (names : List String) (is : List Int64) : Binding σ where
  patterns := names.map .name
  kind := .inSet
  domain := .value (.set (is.map .int))

/-- Bindings that draw given values are worked out without a trace. -/
lemma resolveEach_of_draw_eq {lenient : Bool} {env : Context} {bs : List (Binding σ)}
    {given : Binding σ → List Value} (h : ∀ b ∈ bs, b.draw lenient env = pure (given b)) :
    resolveEach lenient env bs = pure (bs.map given) := by
  induction bs with
  | nil => rfl
  | cons b bs ih =>
    obtain ⟨hb, hbs⟩ := List.forall_mem_cons.mp h
    rw [resolveEach, hb, ih hbs]
    rfl

/-- Each binding has values of its own. -/
lemma length_of_resolveEach {lenient : Bool} {env : Context} {config : EngineConfig}
    {s t : Session σ} {bs : List (Binding σ)} {values : List (List Value)}
    (h : (resolveEach lenient env bs).result config s = (.ok values, t)) :
    values.length = bs.length := by
  induction bs generalizing s t values with
  | nil =>
    obtain ⟨rfl, -⟩ : [] = values ∧ _ := by simpa [resolveEach] using h
    rfl
  | cons b bs ih =>
    obtain ⟨vs, u, -, h⟩ := Eval.result_bind_eq_ok_iff.mp h
    obtain ⟨rest, v, hrest, h⟩ := Eval.result_bind_eq_ok_iff.mp h
    obtain ⟨rfl, -⟩ : vs :: rest = values ∧ _ := by simpa using h
    rw [List.length_cons, List.length_cons, ih hrest]

/-- Where the bindings cannot all be worked out, there is a first one that cannot. -/
lemma exists_of_resolveEach_eq_error {lenient : Bool} {env : Context} {config : EngineConfig}
    {s t : Session σ} {bs : List (Binding σ)} {e : EvalError}
    (h : (resolveEach lenient env bs).result config s = (.error e, t)) :
    ∃ before b after values u, bs = before ++ b :: after ∧
      (resolveEach lenient env before).result config s = (.ok values, u) ∧
      (b.draw lenient env).result config u = (.error e, t) := by
  induction bs generalizing s with
  | nil => simp [resolveEach] at h
  | cons b bs ih =>
    obtain hdraw | ⟨vs, u, hdraw, h⟩ := Eval.result_bind_eq_error_iff.mp h
    · exact ⟨[], b, bs, [], s, rfl, rfl, hdraw⟩
    · obtain hrest | ⟨rest, v, -, h⟩ := Eval.result_bind_eq_error_iff.mp h
      · obtain ⟨before, c, after, values, v, rfl, hbefore, hfail⟩ := ih hrest
        refine ⟨b :: before, c, after, vs :: values, v, rfl, ?_, hfail⟩
        rw [resolveEach, Eval.result_bind_of_ok hdraw, Eval.result_bind_of_ok hbefore]
        rfl
      · simp at h

/-- The combinations of bindings over given values. -/
lemma combinations_map (allOrders : Bool) (given : Binding σ → List Value) (bs : List (Binding σ)) :
    combinations allOrders bs (bs.map given) =
      Match.product (bs.flatMap fun b => b.found allOrders (given b)) := by
  rw [combinations, List.zipWith_map_right, List.zipWith_self, List.flatMap_def]

/-- A binding without patterns is not worked out. -/
lemma result_draw_of_isEmpty {lenient : Bool} {env : Context} {b : Binding σ}
    (h : b.patterns = []) (config : EngineConfig) (s : Session σ) :
    (b.draw lenient env).result config s = (.ok [], s) := by
  simp [draw, h]

/-- A binding with patterns has the values its domain has. -/
lemma result_draw_eq_ok_iff {lenient : Bool} {env : Context} {b : Binding σ}
    (h : b.patterns ≠ []) {config : EngineConfig} {s t : Session σ} {values : List Value} :
    (b.draw lenient env).result config s = (.ok values, t) ↔
      (b.resolveValues lenient env).result config s = (.ok values, t) := by
  rw [draw, if_neg (by simpa using h), Eval.result_bind_of_ok (Eval.result_attempt ..)]
  rcases (b.resolveValues lenient env).result config s with ⟨_ | _, _⟩ <;> simp

/-- A binding with patterns fails as its domain does, and the failure is reported for it. -/
lemma result_draw_eq_error_iff {lenient : Bool} {env : Context} {b : Binding σ}
    (h : b.patterns ≠ []) {config : EngineConfig} {s t : Session σ} {e : EvalError} :
    (b.draw lenient env).result config s = (.error e, t) ↔
      ∃ cause, (b.resolveValues lenient env).result config s = (.error cause, t) ∧
        cause.inBinding b.text = e := by
  rw [draw, if_neg (by simpa using h), Eval.result_bind_of_ok (Eval.result_attempt ..)]
  rcases (b.resolveValues lenient env).result config s with ⟨_ | _, _⟩
  · simp [and_comm]
  · simp

end Binding

namespace Odometer

variable {σ : Type} {lenient : Bool} {env : Context} {config : EngineConfig} {s t : Session σ}

/-! ### The wheels of bindings -/

/-- The wheel of a pattern before anything is worked out. -/
def freshWheel (slot : Nat) (b : Binding σ) (p : Pattern) : Wheel σ :=
  ⟨slot, b, { pattern := p }⟩

/-- The wheel of a pattern with what it finds in given values. -/
def loadedWheel (allOrders : Bool) (slot : Nat) (b : Binding σ) (values : List Value)
    (p : Pattern) : Wheel σ :=
  ⟨slot, b, ({ pattern := p } : Cursor).load allOrders values⟩

/-- The wheels of bindings whose positions are counted from `k`. -/
def freshWheels (k : Nat) (bs : List (Binding σ)) : List (Wheel σ) :=
  (bs.zipIdx k).flatMap fun b => b.1.patterns.map (freshWheel b.2 b.1)

/-- The odometer of a list of bindings has one wheel per pattern. -/
lemma wheels_ofBindings (bs : List (Binding σ)) : (ofBindings bs).wheels = freshWheels 0 bs := rfl

/-- The wheels of the first binding come before those of the others. -/
lemma freshWheels_cons (k : Nat) (b : Binding σ) (bs : List (Binding σ)) :
    freshWheels k (b :: bs) = b.patterns.map (freshWheel k b) ++ freshWheels (k + 1) bs := by
  simp [freshWheels, List.zipIdx_cons]

/-- The wheels of more bindings come after those of the first ones. -/
lemma freshWheels_append (k : Nat) (bs cs : List (Binding σ)) :
    freshWheels k (bs ++ cs) = freshWheels k bs ++ freshWheels (k + bs.length) cs := by
  simp [freshWheels, List.zipIdx_append]

/-- The wheels of bindings whose positions are counted from `k`, with what they find in given
values. -/
def loadedWheels (allOrders : Bool) (k : Nat) (bs : List (Binding σ)) (values : List (List Value)) :
    List (Wheel σ) :=
  ((bs.zipIdx k).zip values).flatMap fun b =>
    b.1.1.patterns.map (loadedWheel allOrders b.1.2 b.1.1 b.2)

/-- The wheels of the first binding come before those of the others. -/
lemma loadedWheels_cons (allOrders : Bool) (k : Nat) (b : Binding σ) (bs : List (Binding σ))
    (values : List Value) (rest : List (List Value)) :
    loadedWheels allOrders k (b :: bs) (values :: rest) =
      b.patterns.map (loadedWheel allOrders k b values) ++
        loadedWheels allOrders (k + 1) bs rest := by
  simp [loadedWheels, List.zipIdx_cons]

/-- They hold what the patterns find. -/
lemma faces_loadedWheels (allOrders : Bool) (k : Nat) (bs : List (Binding σ))
    (values : List (List Value)) :
    faces (loadedWheels allOrders k bs values) =
      (List.zipWith (Binding.found allOrders) bs values).flatten := by
  induction bs generalizing k values with
  | nil => rfl
  | cons b bs ih =>
    cases values with
    | nil => rfl
    | cons vs rest =>
      rw [loadedWheels_cons, faces, List.map_append, ← faces, ← faces, ih]
      simp [faces, loadedWheel, Binding.found, Cursor.load]

/-- They are at their first matches. -/
lemma rewound_of_mem_loadedWheels {allOrders : Bool} {k : Nat} {bs : List (Binding σ)}
    {values : List (List Value)} {w : Wheel σ} (hw : w ∈ loadedWheels allOrders k bs values) :
    Rewound w := by
  obtain ⟨b, -, hb⟩ := List.mem_flatMap.mp hw
  obtain ⟨p, -, rfl⟩ := List.mem_map.mp hb
  rfl

/-! ### What never changes about a wheel -/

/-- The part of the wheels that is fixed by the bindings they belong to. -/
def fixedParts (ws : List (Wheel σ)) : List (Nat × Binding σ × Pattern) :=
  ws.map fun w => (w.slot, w.binding, w.cursor.pattern)

@[simp] lemma fixedParts_cons (w : Wheel σ) (ws : List (Wheel σ)) :
    fixedParts (w :: ws) = (w.slot, w.binding, w.cursor.pattern) :: fixedParts ws := rfl

@[simp] lemma fixedParts_append (ws ws' : List (Wheel σ)) :
    fixedParts (ws ++ ws') = fixedParts ws ++ fixedParts ws' :=
  List.map_append

/-- The fixed parts of the wheels after the first ones. -/
lemma fixedParts_drop (n : Nat) (ws : List (Wheel σ)) :
    fixedParts (ws.drop n) = (fixedParts ws).drop n :=
  List.map_drop

/-- There are as many of them as wheels. -/
lemma length_fixedParts (ws : List (Wheel σ)) : (fixedParts ws).length = ws.length :=
  List.length_map _

/-- Where the fixed parts are those of wheels with a first one, the first wheel is that one with
another cursor for its pattern. -/
lemma exists_of_fixedParts_cons {w : Wheel σ} {ws ws' : List (Wheel σ)}
    (h : fixedParts ws' = fixedParts (w :: ws)) :
    ∃ c ws'', ws' = { w with cursor := c } :: ws'' ∧ c.pattern = w.cursor.pattern ∧
      fixedParts ws'' = fixedParts ws := by
  cases ws' with
  | nil => cases h
  | cons w' ws'' =>
    obtain ⟨slot, binding, c⟩ := w'
    simp only [fixedParts_cons, List.cons.injEq, Prod.mk.injEq] at h
    obtain ⟨⟨rfl, rfl, hpattern⟩, hrest⟩ := h
    exact ⟨c, ws'', rfl, hpattern, hrest⟩

/-- Where they are those of wheels in two parts, so are the wheels. -/
lemma exists_of_fixedParts_append {us vs ws : List (Wheel σ)}
    (h : fixedParts ws = fixedParts (us ++ vs)) :
    ∃ us' vs', ws = us' ++ vs' ∧ fixedParts us' = fixedParts us ∧
      fixedParts vs' = fixedParts vs := by
  rw [fixedParts_append] at h
  exact List.map_eq_append_iff.mp h

/-- Loading does not look at the matches a cursor had before. -/
lemma load_eq_of_pattern {c c' : Cursor} (h : c'.pattern = c.pattern) (allOrders : Bool)
    (values : List Value) : c'.load allOrders values = c.load allOrders values := by
  simp [Cursor.load, h]

/-- Wheels that were loaded, each binding with values of its own, are those of the bindings. -/
lemma fixedParts_loadedWheels (allOrders : Bool) (k : Nat) {bs : List (Binding σ)}
    {values : List (List Value)} (h : values.length = bs.length) :
    fixedParts (loadedWheels allOrders k bs values) = fixedParts (freshWheels k bs) := by
  induction bs generalizing k values with
  | nil => rfl
  | cons b bs ih =>
    obtain ⟨vs, rest, rfl⟩ := List.exists_cons_of_length_eq_add_one h
    have hb : fixedParts (b.patterns.map (loadedWheel allOrders k b vs)) =
        fixedParts (b.patterns.map (freshWheel k b)) := by
      simp [fixedParts, loadedWheel, freshWheel, Cursor.load, Function.comp_def]
    rw [loadedWheels_cons, freshWheels_cons, fixedParts_append, fixedParts_append,
      ih (k + 1) (Nat.succ.inj h), hb]

/-! ### Loading the wheels -/

/-- A wheel of the binding met last takes over its values. -/
lemma loadWheels_reuse {w : Wheel σ} {values : List Value} {ws ws' : List (Wheel σ)}
    {failure : Option EvalError}
    (h : (loadWheels lenient env (some (w.slot, values)) ws).result config s =
      (.ok (ws', failure), t)) :
    (loadWheels lenient env (some (w.slot, values)) (w :: ws)).result config s =
      (.ok ({ w with cursor := w.cursor.load config.allPossibilities values } :: ws', failure),
        t) := by
  rw [loadWheels, if_pos rfl, Eval.result_bind_of_ok (Eval.result_pure ..)]
  rw [Eval.result_bind_of_ok (Eval.result_read ..), Eval.result_bind_of_ok h]
  rfl

/-- A wheel of another binding has the binding worked out, and hands the values on. -/
lemma loadWheels_resolve {w : Wheel σ} {known : Option (Nat × List Value)}
    (hk : ∀ p ∈ known, p.1 ≠ w.slot) {values : List Value} {u : Session σ}
    (hv : (w.binding.resolveValues lenient env).result config s = (.ok values, u))
    {ws ws' : List (Wheel σ)} {failure : Option EvalError}
    (h : (loadWheels lenient env (some (w.slot, values)) ws).result config u =
      (.ok (ws', failure), t)) :
    (loadWheels lenient env known (w :: ws)).result config s =
      (.ok ({ w with cursor := w.cursor.load config.allPossibilities values } :: ws', failure),
        t) := by
  have hattempt : ((w.binding.resolveValues lenient env).attempt).result config s =
      (.ok (.ok values), u) := by rw [Eval.result_attempt, hv]
  rcases known with _ | ⟨slot, old⟩
  · rw [loadWheels, Eval.result_bind_of_ok hattempt]
    rw [Eval.result_bind_of_ok (Eval.result_read ..), Eval.result_bind_of_ok h]
    rfl
  · rw [loadWheels, if_neg (hk _ rfl), Eval.result_bind_of_ok hattempt]
    rw [Eval.result_bind_of_ok (Eval.result_read ..), Eval.result_bind_of_ok h]
    rfl

/-- A binding that cannot be worked out ends the loading. -/
lemma loadWheels_fail {w : Wheel σ} {known : Option (Nat × List Value)}
    (hk : ∀ p ∈ known, p.1 ≠ w.slot) {e : EvalError}
    (hv : (w.binding.resolveValues lenient env).result config s = (.error e, t))
    (ws : List (Wheel σ)) :
    (loadWheels lenient env known (w :: ws)).result config s =
      (.ok (w :: ws, some (e.inBinding w.binding.text)), t) := by
  have hattempt : ((w.binding.resolveValues lenient env).attempt).result config s =
      (.ok (.error e), t) := by rw [Eval.result_attempt, hv]
  rcases known with _ | ⟨slot, old⟩
  · rw [loadWheels, Eval.result_bind_of_ok hattempt]
    rfl
  · rw [loadWheels, if_neg (hk _ rfl), Eval.result_bind_of_ok hattempt]
    rfl

/-- Wheels of the binding met last are loaded with its values, and what follows them is loaded as if
they were not there. -/
lemma loadWheels_shared {k : Nat} {b : Binding σ} {values : List Value} {ps : List Pattern}
    {us ws ws' : List (Wheel σ)} (hus : fixedParts us = fixedParts (ps.map (freshWheel k b)))
    {failure : Option EvalError}
    (h : (loadWheels lenient env (some (k, values)) ws).result config s =
      (.ok (ws', failure), t)) :
    (loadWheels lenient env (some (k, values)) (us ++ ws)).result config s =
      (.ok (ps.map (loadedWheel config.allPossibilities k b values) ++ ws', failure), t) := by
  induction ps generalizing us with
  | nil =>
    obtain rfl : us = [] := List.map_eq_nil_iff.mp hus
    exact h
  | cons p ps ih =>
    obtain ⟨c, us', rfl, hpattern, hrest⟩ := exists_of_fixedParts_cons hus
    have hreuse := loadWheels_reuse (w := { freshWheel k b p with cursor := c }) (ih hrest)
    rw [load_eq_of_pattern hpattern] at hreuse
    exact hreuse

/-- The wheels of a binding that was not met last are loaded with the values it is found to have,
and what follows them is loaded after it. -/
lemma loadWheels_binding {k : Nat} {b : Binding σ} {values : List Value} (hb : b.patterns ≠ [])
    {known : Option (Nat × List Value)} (hk : ∀ p ∈ known, p.1 < k) {us ws ws' : List (Wheel σ)}
    (hus : fixedParts us = fixedParts (b.patterns.map (freshWheel k b))) {u : Session σ}
    (hv : (b.resolveValues lenient env).result config s = (.ok values, u))
    {failure : Option EvalError}
    (h : (loadWheels lenient env (some (k, values)) ws).result config u =
      (.ok (ws', failure), t)) :
    (loadWheels lenient env known (us ++ ws)).result config s =
      (.ok (b.patterns.map (loadedWheel config.allPossibilities k b values) ++ ws', failure),
        t) := by
  obtain ⟨p, ps, hp⟩ := List.exists_cons_of_ne_nil hb
  rw [hp] at hus
  obtain ⟨c, us', rfl, hpattern, hrest⟩ := exists_of_fixedParts_cons hus
  have hresolve := loadWheels_resolve (w := { freshWheel k b p with cursor := c })
    (fun q hq => Nat.ne_of_lt (hk q hq)) hv (loadWheels_shared hrest h)
  rw [load_eq_of_pattern hpattern] at hresolve
  rw [hp]
  exact hresolve

/-- **Loading** works the domains out once per binding: where all of them can be worked out, the
wheels are rewound and hold what the patterns find in the values, whatever they held before.

**Proof sketch.** Induction on the bindings. The wheels of a binding are never of the binding met
before it, as positions are counted upwards; the first one has the binding worked out and the others
share the values (`loadWheels_binding`). A binding without patterns has no wheel. -/
lemma loadWheels_of_ok {bs : List (Binding σ)} {values : List (List Value)} {k : Nat}
    {known : Option (Nat × List Value)} (hk : ∀ p ∈ known, p.1 < k) {ws : List (Wheel σ)}
    (hws : fixedParts ws = fixedParts (freshWheels k bs))
    (h : (Binding.resolveEach lenient env bs).result config s = (.ok values, t)) :
    (loadWheels lenient env known ws).result config s =
      (.ok (loadedWheels config.allPossibilities k bs values, none), t) := by
  induction bs generalizing k known ws s values with
  | nil =>
    obtain ⟨rfl, rfl⟩ : [] = values ∧ s = t := by simpa [Binding.resolveEach] using h
    obtain rfl : ws = [] := List.map_eq_nil_iff.mp hws
    cases known <;> rfl
  | cons b bs ih =>
    obtain ⟨vs, u, hdraw, h⟩ := Eval.result_bind_eq_ok_iff.mp h
    obtain ⟨rest, v, hrest, h⟩ := Eval.result_bind_eq_ok_iff.mp h
    obtain ⟨rfl, rfl⟩ : vs :: rest = values ∧ v = t := by simpa using h
    rw [freshWheels_cons] at hws
    obtain ⟨us, ws', rfl, hus, hws'⟩ := exists_of_fixedParts_append hws
    rw [loadedWheels_cons]
    by_cases hb : b.patterns = []
    · rw [Binding.result_draw_of_isEmpty hb] at hdraw
      obtain ⟨rfl, rfl⟩ : [] = vs ∧ s = u := by simpa using hdraw
      rw [hb] at hus ⊢
      obtain rfl : us = [] := List.map_eq_nil_iff.mp hus
      exact ih (fun p hp => Nat.lt_succ_of_lt (hk p hp)) hws' hrest
    · exact loadWheels_binding hb hk hus ((Binding.result_draw_eq_ok_iff hb).mp hdraw)
        (ih (by simp) hws' hrest)

/-- Where a domain cannot be worked out the loading ends. The wheels of the bindings before it are
loaded, and those from there on are as they were. -/
lemma loadWheels_of_error {before after : List (Binding σ)} {b : Binding σ}
    {values : List (List Value)} {u : Session σ} {e : EvalError} {k : Nat}
    {known : Option (Nat × List Value)} (hk : ∀ p ∈ known, p.1 < k) {ws : List (Wheel σ)}
    (hws : fixedParts ws = fixedParts (freshWheels k (before ++ b :: after)))
    (hbefore : (Binding.resolveEach lenient env before).result config s = (.ok values, u))
    (hfail : (b.draw lenient env).result config u = (.error e, t))
    {loaded : List (Wheel σ)}
    (hloaded : loaded = loadedWheels config.allPossibilities k before values) :
    (loadWheels lenient env known ws).result config s =
      (.ok (loaded ++ ws.drop loaded.length, some e), t) := by
  induction before generalizing k known ws s values loaded with
  | nil =>
    obtain ⟨rfl, rfl⟩ : [] = values ∧ s = u := by simpa [Binding.resolveEach] using hbefore
    obtain rfl : loaded = [] := hloaded
    have hb : b.patterns ≠ [] := by
      intro hb
      simp [Binding.result_draw_of_isEmpty hb] at hfail
    obtain ⟨p, ps, hp⟩ := List.exists_cons_of_ne_nil hb
    obtain ⟨cause, hcause, rfl⟩ := (Binding.result_draw_eq_error_iff hb).mp hfail
    rw [List.nil_append, freshWheels_cons, hp] at hws
    obtain ⟨c, ws', rfl, -, -⟩ := exists_of_fixedParts_cons hws
    exact loadWheels_fail (w := { freshWheel k b p with cursor := c })
      (fun q hq => Nat.ne_of_lt (hk q hq)) hcause ws'
  | cons d before ih =>
    obtain ⟨vs, v, hdraw, h⟩ := Eval.result_bind_eq_ok_iff.mp hbefore
    obtain ⟨rest, w, hrest, h⟩ := Eval.result_bind_eq_ok_iff.mp h
    obtain ⟨rfl, rfl⟩ : vs :: rest = values ∧ w = u := by simpa using h
    rw [List.cons_append, freshWheels_cons] at hws
    obtain ⟨us, ws', rfl, hus, hws'⟩ := exists_of_fixedParts_append hws
    rw [hloaded, loadedWheels_cons]
    by_cases hd : d.patterns = []
    · rw [Binding.result_draw_of_isEmpty hd] at hdraw
      obtain ⟨rfl, rfl⟩ : [] = vs ∧ s = v := by simpa using hdraw
      rw [hd] at hus ⊢
      obtain rfl : us = [] := List.map_eq_nil_iff.mp hus
      exact ih (fun p hp => Nat.lt_succ_of_lt (hk p hp)) hws' hrest rfl
    · have hlen : (d.patterns.map (loadedWheel config.allPossibilities k d vs)).length =
          us.length := by
        rw [← length_fixedParts us, hus, length_fixedParts, List.length_map, List.length_map]
      rw [List.length_append, hlen, List.drop_length_add_append, List.append_assoc]
      exact loadWheels_binding hd hk hus ((Binding.result_draw_eq_ok_iff hd).mp hdraw)
        (ih (by simp) hws' hrest rfl)

/-! ### The odometer of a list of bindings -/

/-- **Starting** an odometer of some bindings, where every domain can be worked out: it is at the
first reading of the wheels with what the patterns find in the values. -/
theorem start_of_ok {bs : List (Binding σ)} {o : Odometer σ}
    (ho : fixedParts o.wheels = fixedParts (freshWheels 0 bs)) {values : List (List Value)}
    (h : (Binding.resolveEach lenient env bs).result config s = (.ok values, t)) :
    (o.start lenient env).result config s =
      (.ok (atFirstReading (loadedWheels config.allPossibilities 0 bs values), none), t) := by
  rw [start, Eval.result_bind_of_ok (loadWheels_of_ok (by simp) ho h)]
  rfl

/-- Where some domain cannot be worked out, the first failure is reported, for its binding. The
wheels of the bindings before that one are loaded, and nothing else about the odometer changes. -/
theorem start_of_error {before after : List (Binding σ)} {b : Binding σ} {o : Odometer σ}
    (ho : fixedParts o.wheels = fixedParts (freshWheels 0 (before ++ b :: after)))
    {values : List (List Value)} {u : Session σ} {e : EvalError}
    (hbefore : (Binding.resolveEach lenient env before).result config s = (.ok values, u))
    (hfail : (b.draw lenient env).result config u = (.error e, t))
    {loaded : List (Wheel σ)}
    (hloaded : loaded = loadedWheels config.allPossibilities 0 before values) :
    (o.start lenient env).result config s =
      (.ok ({ o with wheels := loaded ++ o.wheels.drop loaded.length }, some e), t) := by
  have hknown : ∀ p ∈ (none : Option (Nat × List Value)), p.1 < 0 := nofun
  have hload := loadWheels_of_error hknown ho hbefore hfail hloaded
  rw [start, Eval.result_bind_of_ok hload]
  rfl

/-- A start that succeeds has worked out the bindings. The odometer is at the first reading of the
wheels with what the patterns find in the values. -/
lemma exists_values_of_start {bs : List (Binding σ)} {o o' : Odometer σ}
    (ho : fixedParts o.wheels = fixedParts (freshWheels 0 bs))
    (h : (o.start lenient env).result config s = (.ok (o', none), t)) :
    ∃ values, (Binding.resolveEach lenient env bs).result config s = (.ok values, t) ∧
      o' = atFirstReading (loadedWheels config.allPossibilities 0 bs values) := by
  rcases hvalues : (Binding.resolveEach lenient env bs).result config s with ⟨e | values, u⟩
  · obtain ⟨before, b, after, values, v, rfl, hbefore, hfail⟩ :=
      Binding.exists_of_resolveEach_eq_error hvalues
    simp [start_of_error ho hbefore hfail rfl] at h
  · have hstart := start_of_ok ho hvalues
    obtain ⟨rfl, rfl⟩ : _ = o' ∧ u = t := by simpa using hstart.symm.trans h
    exact ⟨values, rfl, rfl⟩

/-- A start that fails has worked out the bindings before some binding, and failed at that one. The
wheels before are loaded, and nothing else has changed. -/
lemma exists_loaded_of_start {bs : List (Binding σ)} {o o' : Odometer σ} {e : EvalError}
    (ho : fixedParts o.wheels = fixedParts (freshWheels 0 bs))
    (h : (o.start lenient env).result config s = (.ok (o', some e), t)) :
    ∃ before b after values u loaded, bs = before ++ b :: after ∧
      (Binding.resolveEach lenient env before).result config s = (.ok values, u) ∧
      (b.draw lenient env).result config u = (.error e, t) ∧
      loaded = loadedWheels config.allPossibilities 0 before values ∧
      o' = { o with wheels := loaded ++ o.wheels.drop loaded.length } := by
  rcases hvalues : (Binding.resolveEach lenient env bs).result config s with ⟨e' | values, v⟩
  · obtain ⟨before, b, after, values, u, rfl, hbefore, hfail⟩ :=
      Binding.exists_of_resolveEach_eq_error hvalues
    have hstart := start_of_error ho hbefore hfail rfl
    obtain ⟨⟨rfl, rfl⟩, rfl⟩ : (_ = o' ∧ e' = e) ∧ v = t := by simpa using hstart.symm.trans h
    exact ⟨before, b, after, values, u, _, rfl, hbefore, hfail, rfl, rfl⟩
  · simp [start_of_ok ho hvalues] at h

/-- At the first reading of wheels that were loaded the combinations of the bindings are to come. -/
lemma atFirstReading_loadedWheels (allOrders : Bool) (bs : List (Binding σ))
    (values : List (List Value)) :
    faces (atFirstReading (loadedWheels allOrders 0 bs values)).wheels =
        (List.zipWith (Binding.found allOrders) bs values).flatten ∧
      (atFirstReading (loadedWheels allOrders 0 bs values)).IsValid ∧
      (atFirstReading (loadedWheels allOrders 0 bs values)).remaining =
        Binding.combinations allOrders bs values ∧
      (atFirstReading (loadedWheels allOrders 0 bs values)).combinations =
        (Binding.combinations allOrders bs values).length := by
  have hspec := atFirstReading_spec fun w =>
    @rewound_of_mem_loadedWheels σ allOrders 0 bs values w
  rw [faces_loadedWheels] at hspec
  exact hspec

end Odometer

end BoundedLogic
