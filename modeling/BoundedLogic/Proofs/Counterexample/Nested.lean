import BoundedLogic.Proofs.Counterexample.Existential
import BoundedLogic.Proofs.Counterexample.Recording

set_option relaxedAutoImplicit false
set_option autoImplicit false

/-!
# Counterexamples of nested quantifications

In a nest of quantifications, each directly inside the one before, the frames recorded in the end
are a path down the universal quantifications in front: at each of them the first frame on which the
rest of the nest is false. Walking that path in again leads to a part of the nest that is false.
What is below adds nothing to it, as the first existential quantification starts with nothing
recorded, and cuts all that is recorded inside it away.

## Main definitions

* `BoundedLogic.Predicate.nest` — quantifications, each directly inside the one before.
* `BoundedLogic.Replays` — the frames that falsify the universal quantifications in front of a nest.

## Main results

* `BoundedLogic.nested_counterexample_replays` — the frames recorded where a nest is false.
-/

namespace BoundedLogic

variable {σ : Type} {config : EngineConfig}

/-! ### Nests -/

/-- A quantifier with its bindings. -/
abbrev Layer (σ : Type) : Type :=
  Quantifier × List (Binding σ)

/-- The nest of the given layers, the outermost first, around a predicate. -/
def Predicate.nest (leaf : Predicate σ) : List (Layer σ) → Predicate σ
  | [] => leaf
  | (q, bs) :: layers => .quantified q bs (nest leaf layers)

/-- Is the layer universal? -/
def Layer.isUniversal (layer : Layer σ) : Bool :=
  layer.1 == .universal

/-- The number of universal layers in front. -/
def leadingUniversals (layers : List (Layer σ)) : Nat :=
  (layers.takeWhile Layer.isUniversal).length

/-- The context inside universal quantifications on the given frames, the outermost first. -/
def Context.extendEach (env : Context) (fs : List Frame) : Context :=
  fs.foldl (fun c f => c.extend Quantifier.universal.keyword f) env

/-- The frames on which the universal layers in front of a nest are false, the outermost first: each
is the first frame of its layer, with the domains worked out in the context of the frames before, on
which the rest of the nest is false. Below them a part of the nest is left that is false and does
not start with a universal layer. -/
inductive Replays (config : EngineConfig) (leaf : Predicate σ) :
    List (Layer σ) → Context → Session σ → List Frame → Prop
  | rest {layers : List (Layer σ)} {env : Context} {s t : Session σ}
      (hfront : leadingUniversals layers = 0)
      (h : ((leaf.nest layers).evaluate env).result config s = (.ok (.bool false), t)) :
      Replays config leaf layers env s []
  | layer {bs : List (Binding σ)} {layers : List (Layer σ)} {env : Context}
      {values : List (List Value)} {f : Frame} {fs : List Frame} {s s₀ u v : Session σ}
      (hbs : (Binding.resolveEach config.allowUnresolved env bs).result config s =
        (.ok values, s₀))
      (hfail : FirstFailure config (Quantifier.universal.onFrame env (leaf.nest layers).evaluate)
        (Binding.frames config.allPossibilities bs values) s₀.forget f u v)
      (hrest : Replays config leaf layers (env.extend Quantifier.universal.keyword f) u fs) :
      Replays config leaf ((.universal, bs) :: layers) env s (f :: fs)

/-- Without a universal layer in front there is none to leave out. -/
lemma dropWhile_isUniversal_of_leadingUniversals {layers : List (Layer σ)}
    (h : leadingUniversals layers = 0) : layers.dropWhile Layer.isUniversal = layers := by
  cases layers with
  | nil => rfl
  | cons layer layers =>
    cases hlayer : layer.isUniversal with
    | true => simp [leadingUniversals, hlayer] at h
    | false => simp [hlayer]

/-- A path leads through all universal layers in front. -/
lemma Replays.length_eq {leaf : Predicate σ} {layers : List (Layer σ)} {env : Context}
    {fs : List Frame} {s : Session σ} (h : Replays config leaf layers env s fs) :
    fs.length = leadingUniversals layers := by
  induction h with
  | rest hfront _ => exact hfront.symm
  | layer _ _ _ ih => simpa [leadingUniversals, Layer.isUniversal] using ih

/-- At the end of a path the part of the nest below the universal layers in front is false. -/
lemma Replays.rest_false {leaf : Predicate σ} {layers : List (Layer σ)} {env : Context}
    {fs : List Frame} {s : Session σ} (h : Replays config leaf layers env s fs) :
    ∃ u v, ((leaf.nest (layers.dropWhile Layer.isUniversal)).evaluate (env.extendEach fs)).result
      config u = (.ok (.bool false), v) := by
  induction h with
  | rest hfront h =>
    rw [dropWhile_isUniversal_of_leadingUniversals hfront]
    exact ⟨_, _, h⟩
  | layer _ _ _ ih => simpa [Layer.isUniversal, Context.extendEach] using ih

/-! ### What is recorded -/

/-- A run over satisfied frames does not end the recording, if the predicate does not. -/
lemma Satisfied.isSome {p : Frame → Eval σ Value} (hp : ∀ f, Eval.StaysRecording config (p f))
    {fs : List Frame} {s t : Session σ} (h : Satisfied config p fs s t)
    (hs : s.counterexample.isSome) : t.counterexample.isSome := by
  induction h with
  | nil => exact hs
  | cons h _ ih => exact ih (by simpa using hp _ _ _ _ h hs)

/-- The recording is still on when the predicate is asked on the failing frame. -/
lemma FirstFailure.isSome {p : Frame → Eval σ Value} (hp : ∀ f, Eval.StaysRecording config (p f))
    {fs : List Frame} {f : Frame} {s u v : Session σ} (h : FirstFailure config p fs s f u v)
    (hs : s.counterexample.isSome) : u.counterexample.isSome := by
  obtain ⟨before, after, -, hsat⟩ := h.satisfied
  exact hsat.isSome hp hs

/-- A predicate that leaves the recorded frames as they are when it gives a value. -/
def Predicate.LeavesRecorded (config : EngineConfig) (leaf : Predicate σ) : Prop :=
  ∀ env s v t, (leaf.evaluate env).result config s = (.ok v, t) →
    t.counterexample = s.counterexample

/-- What the host computes for the domains of the layers does not end the recording. -/
def StayRecording (config : EngineConfig) (layers : List (Layer σ)) : Prop :=
  ∀ layer ∈ layers, ∀ b ∈ layer.2, b.domain.StaysRecording config

/-- A nest does not end the recording, if neither its domains nor the predicate inside do. -/
lemma staysRecording_nest {leaf : Predicate σ} (hleaf : leaf.LeavesRecorded config)
    {layers : List (Layer σ)} (hlayers : StayRecording config layers) (env : Context) :
    Eval.StaysRecording config ((leaf.nest layers).evaluate env) := by
  induction layers generalizing env with
  | nil =>
    intro s v t h hs
    rwa [hleaf env s v t h]
  | cons layer layers ih =>
    have hrest : StayRecording config layers := fun l hl => hlayers l (List.mem_cons_of_mem _ hl)
    have hbs := hlayers layer List.mem_cons_self
    exact (Quantifier.staysRecording_evaluate layer.1 hbs (ih hrest)).bind fun holds =>
      Eval.staysRecording_pure _

/-- **A false nest** with a universal layer in front, or evaluated with nothing recorded, leaves the
frames of a path recorded, the innermost first.

**Proof sketch.** Induction on the layers. The predicate inside records nothing. A universal layer
asks the rest of the nest with nothing recorded on the first frame on which it is false, so that the
rest leaves the frames of its path, and the frame is recorded after them. Any other layer starts
with nothing recorded and cuts back to that. -/
lemma exists_replays {leaf : Predicate σ} (hleaf : leaf.LeavesRecorded config)
    {layers : List (Layer σ)} (hlayers : StayRecording config layers) {env : Context}
    {s t : Session σ} (hs : s.counterexample.isSome)
    (hfront : s.NothingRecorded ∨ 0 < leadingUniversals layers)
    (h : ((leaf.nest layers).evaluate env).result config s = (.ok (.bool false), t)) :
    ∃ fs, Replays config leaf layers env s fs ∧ t.counterexample = some ⟨fs.reverse⟩ := by
  have ht := staysRecording_nest hleaf hlayers env s _ t h hs
  induction layers generalizing env s t with
  | nil =>
    have hempty : s.NothingRecorded := hfront.resolve_right (by simp [leadingUniversals])
    refine ⟨[], .rest rfl h, ?_⟩
    rw [hleaf env s _ t h]
    exact hempty.counterexample_eq hs
  | cons layer layers ih =>
    obtain ⟨q, bs⟩ := layer
    have hrest : StayRecording config layers := fun l hl => hlayers l (List.mem_cons_of_mem _ hl)
    have heval := Quantifier.result_evaluate_quantified_eq_ok_iff.mp h
    by_cases hq : q = .universal
    · subst hq
      obtain ⟨values, s₀, hbs, ⟨hb, -⟩ | ⟨-, f, u, v, hfail, rfl⟩⟩ :=
        Quantifier.evaluate_universal_cases heval
      · cases hb
      -- the rest of the nest is asked with the recording on and nothing recorded yet
      have hinner := staysRecording_nest hleaf hrest
      have hs₀ := Binding.staysRecording_resolveEach (hlayers _ List.mem_cons_self) _ _ _ hbs hs
      have hu := hfail.isSome (fun f => hinner _) (by simpa using hs₀)
      have hempty := hfail.nothingRecorded s₀.nothingRecorded_forget
      obtain ⟨fs, hreplays, hv⟩ := ih hrest hu (.inl hempty) hfail.fails
        (hinner _ _ _ _ hfail.fails hu)
      refine ⟨f :: fs, .layer hbs hfail hreplays, ?_⟩
      simp [hv, Counterexample.push]
    · -- no universal layer in front: only the other reason is left, that nothing is recorded
      have hzero : leadingUniversals ((q, bs) :: layers) = 0 := by
        simp [leadingUniversals, Layer.isUniversal, hq]
      have hempty : s.NothingRecorded := hfront.resolve_right (by omega)
      obtain ⟨values, s₀, n, v, -, -, -, rfl⟩ :=
        Quantifier.evaluate_existential_cases hq (hempty.counterexample_eq hs) heval
      exact ⟨[], .rest hzero h, v.nothingRecorded_truncate_zero.counterexample_eq ht⟩

/-- **Counterexamples of nests replay.** If a nest with a universal layer in front is false, the
recorded frames are, the innermost first, those of a path through all universal layers in front,
whatever was recorded before: each the first frame of its layer on which the rest of the nest is
false. So the part of the nest below these layers is false in the context of the path. -/
theorem nested_counterexample_replays {leaf : Predicate σ} (hleaf : leaf.LeavesRecorded config)
    {bs : List (Binding σ)} {layers : List (Layer σ)}
    (hlayers : StayRecording config ((.universal, bs) :: layers)) {env : Context}
    {s t : Session σ} (hs : s.counterexample.isSome)
    (h : (Quantifier.universal.evaluate bs (leaf.nest layers).evaluate env).result config s =
      (.ok false, t)) :
    ∃ fs, Replays config leaf ((.universal, bs) :: layers) env s fs ∧
      fs.length = leadingUniversals layers + 1 ∧ t.counterexample = some ⟨fs.reverse⟩ ∧
      ∃ u v, ((leaf.nest (layers.dropWhile Layer.isUniversal)).evaluate (env.extendEach fs)).result
        config u = (.ok (.bool false), v) := by
  have hfront : leadingUniversals ((.universal, bs) :: layers) = leadingUniversals layers + 1 := by
    simp [leadingUniversals, Layer.isUniversal]
  have hnest := Quantifier.result_evaluate_quantified_eq_ok_iff.mpr h
  obtain ⟨fs, hreplays, ht⟩ := exists_replays hleaf hlayers hs (.inr (by omega)) hnest
  refine ⟨fs, hreplays, ?_, ht, ?_⟩
  · rw [hreplays.length_eq, hfront]
  · simpa [Layer.isUniversal] using hreplays.rest_false

/-- The binding `x in set {true, false}`. -/
def xAmongBooleans : Binding Unit where
  patterns := [.name "x"]
  kind := .inSet
  domain := .value (.set [.bool true, .bool false])

/-- The binding `y in set {x}`. -/
def yAmongX : Binding Unit where
  patterns := [.name "y"]
  kind := .inSet
  domain := .computed "\x7bx\x7d" fun env => pure (.set (env.lookup? "x").toList)

/-- The layers `forall y in set {x} & exists z in set {0} & forall w in set {7}`. -/
def layersYZW : List (Layer Unit) :=
  [(.universal, [yAmongX]), (.existential, [.overIntegers ["z"] [0]]),
    (.universal, [.overIntegers ["w"] [7]])]

/-- The predicate `x`. -/
def valueX : Predicate Unit :=
  .host fun env => pure ((env.lookup? "x").getD .nil)

/-- With `forall x in set {true, false}` in front of these layers around `x`, the frames of `y` and
of `x` are recorded, and no others. -/
theorem nested_counterexample_replays_layersYZW :
    valueX.LeavesRecorded {} ∧ StayRecording {} ((.universal, [xAmongBooleans]) :: layersYZW) ∧
      (Session.running [⟨[("old", .int 0)]⟩]).counterexample.isSome ∧
      ∃ fs, Replays {} valueX ((.universal, [xAmongBooleans]) :: layersYZW) .root
          (.running [⟨[("old", .int 0)]⟩]) fs ∧
        fs.length = 2 ∧
        (Session.running [⟨[("y", .bool false)]⟩, ⟨[("x", .bool false)]⟩]).counterexample =
          some ⟨fs.reverse⟩ ∧
        ∃ u v, ((valueX.nest (layersYZW.dropWhile Layer.isUniversal)).evaluate
          (Context.root.extendEach fs)).result {} u = (.ok (.bool false), v) := by
  have hleaf : valueX.LeavesRecorded {} := by
    intro env s v t h
    obtain ⟨-, rfl⟩ : _ ∧ s = t := by simpa [valueX, Predicate.evaluate] using h
    rfl
  have hlayers : StayRecording {} ((.universal, [xAmongBooleans]) :: layersYZW) := by
    simp [StayRecording, layersYZW, Binding.overIntegers, xAmongBooleans, yAmongX,
      Domain.StaysRecording, Eval.staysRecording_pure]
  have hrun : (Quantifier.universal.evaluate [xAmongBooleans]
      (valueX.nest layersYZW).evaluate .root).result {} (.running [⟨[("old", .int 0)]⟩]) =
      (.ok false, .running [⟨[("y", .bool false)]⟩, ⟨[("x", .bool false)]⟩]) := rfl
  exact ⟨hleaf, hlayers, rfl, nested_counterexample_replays hleaf hlayers rfl hrun⟩

end BoundedLogic
