import BoundedLogic.Proofs.Evaluation.Closure
import BoundedLogic.Proofs.Quantifier.LoopHeads

set_option relaxedAutoImplicit false
set_option autoImplicit false

/-!
# The calls of a predicate

A scan calls its predicate on one frame after another, until it has its answer, the predicate fails
or a terminate cuts it off. Which calls these are depends on how the earlier ones ended and on the
sessions they left. In a nest of quantifications every call of a predicate that is a quantification
again is a scan with calls of its own; the calls that are left in the end are those of the host.

The calls are worked out beside the evaluation. That they are the calls that really take place is
seen by a host that notes each of them: after an evaluation it has noted exactly these.

## Main definitions

* `BoundedLogic.Quantifier.trace` — what the calls of a predicate contribute, one after another.
* `BoundedLogic.Quantifier.frames` — the frames on which a predicate is called.
* `BoundedLogic.Predicate.leafCalls` — the contexts in which a nest calls the predicates of the
  host.
* `BoundedLogic.Eval.Notes` — what the host has noted after an evaluation.

## Main results

* `BoundedLogic.Quantifier.notes_evaluate` — a host that notes what its calls contribute has noted
  the trace.
* `BoundedLogic.Predicate.notes_leafCalls` — a host that notes its calls has noted those of a nest.
-/

namespace BoundedLogic

variable {σ α β γ : Type}

namespace Quantifier

variable {q : Quantifier} {env : Context} {p : Context → Eval σ Value}
  {visit : β → Bool → Frame → Eval σ (ForInStep β)} {config : EngineConfig} {s : Session σ}

/-! ### The scan of a quantification -/

/-- The answer of a quantification, from what its visitor kept of the answers in the end. -/
def verdict : (q : Quantifier) → Tally q → Bool
  | .universal => fun holds : Bool => holds
  | .existential => fun found : Bool => found
  | .unique => fun count : Nat => count == 1

/-- A quantification ends as its scan does. What precedes and follows the scan concerns no more of
the session than the recorded frames. -/
lemma exists_result_evaluate (q : Quantifier) (bs : List (Binding σ)) (p : Context → Eval σ Value)
    (env : Context) (config : EngineConfig) (s : Session σ) :
    ∃ c, (q.evaluate bs p env).result config s =
      (((q.scan bs env p q.startsClear q.visitor q.firstTally).result config s).1.map q.verdict,
        { ((q.scan bs env p q.startsClear q.visitor q.firstTally).result config s).2 with
          counterexample := c }) := by
  rcases h : (q.scan bs env p q.startsClear q.visitor q.firstTally).result config s with ⟨r, t⟩
  obtain ⟨c, hc⟩ := Eval.exists_result_restoring
    (q.scan bs env p q.startsClear q.visitor q.firstTally) config s
  rw [h] at hc
  cases q with
  | universal =>
    cases r with
    | error e => exact ⟨t.counterexample, Eval.result_bind_of_error h⟩
    | ok holds =>
      have hrest := Eval.result_bind_of_ok (f := fun holds : Bool => do
        if holds then
          Eval.clearCounterexample
        pure holds) h
      cases holds <;> exact ⟨_, hrest⟩
  | existential => cases r <;> exact ⟨c, hc⟩
  | unique =>
    rw [evaluate_unique_eq]
    cases r with
    | error e => exact ⟨c, Eval.result_bind_of_error hc⟩
    | ok count => exact ⟨c, Eval.result_bind_of_ok hc⟩

/-! ### Calls of a scan -/

/-- Ask the predicate on a frame and pass the answer to the visitor. -/
def advance (q : Quantifier) (env : Context) (p : Context → Eval σ Value)
    (visit : β → Bool → Frame → Eval σ (ForInStep β)) (acc : β) (f : Frame) :
    Eval σ (ForInStep β) := do
  let holds ← q.ask env p f
  visit acc holds f

/-- A scan asks the predicate on the frame of its next combination, and goes on if the visitor wants
to. -/
lemma result_scanList_of_some_advance (hs : s.interrupter.terminateRequested = false) {m : Match}
    {f : Frame} (hm : m.toFrame? = some f) (ms : List Match) (acc : β) :
    (q.scanList env p visit (m :: ms) acc).result config s =
      (q.advance env p visit acc f >>= fun step =>
        match step with
        | .done acc => pure acc
        | .yield acc => q.scanList env p visit ms acc).result config s := by
  rw [result_scanList_of_some hs hm, advance]
  exact congrArg (fun x : Eval σ β => x.result config s) (bind_assoc ..).symm

/-- What the calls of the predicate in a scan over combinations contribute, in the order of the
calls. A call contributes by its frame and the session it starts from. -/
def traceFrom (config : EngineConfig) (q : Quantifier) (env : Context) (p : Context → Eval σ Value)
    (visit : β → Bool → Frame → Eval σ (ForInStep β)) (contribution : Frame → Session σ → List γ) :
    List Match → β → Session σ → List γ
  | [], _, _ => []
  | m :: ms, acc, s =>
    if s.interrupter.terminateRequested then []
    else
      match m.toFrame? with
      | none => traceFrom config q env p visit contribution ms acc s
      | some f =>
        contribution f s ++
          match (q.advance env p visit acc f).result config s with
          | (.ok (.yield acc), t) => traceFrom config q env p visit contribution ms acc t
          | _ => []

/-- What the calls of the predicate in the evaluation of a quantification contribute. -/
def trace (config : EngineConfig) (q : Quantifier) (bs : List (Binding σ))
    (p : Context → Eval σ Value) (env : Context) (contribution : Frame → Session σ → List γ)
    (s : Session σ) : List γ :=
  match (Binding.resolveEach config.allowUnresolved env bs).result config s with
  | (.ok values, t) =>
    traceFrom config q env p q.visitor contribution
      (Binding.combinations config.allPossibilities bs values) q.firstTally
      (if q.startsClear then t.forget else t)
  | (.error _, _) => []

/-- The frames on which the predicate is called. -/
def frames (config : EngineConfig) (q : Quantifier) (bs : List (Binding σ))
    (p : Context → Eval σ Value) (env : Context) (s : Session σ) : List Frame :=
  q.trace config bs p env (fun f _ => [f]) s

variable {contribution : Frame → Session σ → List γ}

/-- Under a terminate nothing is called. -/
lemma traceFrom_of_terminating (hs : s.interrupter.terminateRequested = true) (m : Match)
    (ms : List Match) (acc : β) :
    traceFrom config q env p visit contribution (m :: ms) acc s = [] := by
  rw [traceFrom, if_pos hs]

/-- On an inconsistent combination nothing is called. -/
lemma traceFrom_of_none (hs : s.interrupter.terminateRequested = false) {m : Match}
    (hm : m.toFrame? = none) (ms : List Match) (acc : β) :
    traceFrom config q env p visit contribution (m :: ms) acc s =
      traceFrom config q env p visit contribution ms acc s := by
  simp [traceFrom, hs, hm]

/-- The call on any other combination comes before those on the later ones. -/
lemma traceFrom_of_some (hs : s.interrupter.terminateRequested = false) {m : Match} {f : Frame}
    (hm : m.toFrame? = some f) (ms : List Match) (acc : β) :
    traceFrom config q env p visit contribution (m :: ms) acc s = contribution f s ++
      match (q.advance env p visit acc f).result config s with
      | (.ok (.yield acc), t) => traceFrom config q env p visit contribution ms acc t
      | _ => [] := by
  simp only [traceFrom, hs, hm, Bool.false_eq_true, if_false]

end Quantifier

/-- The contexts in which a nest of quantifications calls the predicates of the host. What the host
makes of evaluations of predicates is a predicate of the host as well. -/
def Predicate.leafCalls (config : EngineConfig) :
    Predicate σ → Context → Session σ → List Context
  | .host _, env, _ => [env]
  | .compound _ _, env, _ => [env]
  | .shared p, env, s => p.leafCalls config env s
  | .quantified q bs body, env, s =>
    q.trace config bs body.evaluate env
      (fun f t => body.leafCalls config (env.extend q.keyword f) t) s

/-! ### A host that notes its calls -/

/-- After the evaluation these notes stand behind those that the host had. -/
def Eval.Notes (log : σ → List γ) (config : EngineConfig) (x : Eval σ α) (s : Session σ)
    (noted : List γ) : Prop :=
  log (x.result config s).2.host = log s.host ++ noted

section

variable {log : σ → List γ} {config : EngineConfig}

namespace Eval

/-- A sequence of two evaluations, of which the first one fails. -/
lemma Notes.bind_of_error {x : Eval σ α} {f : α → Eval σ β} {s t : Session σ} {e : EvalError}
    {noted : List γ} (hx : Notes log config x s noted) (h : x.result config s = (.error e, t)) :
    Notes log config (x >>= f) s noted := by
  rw [Notes, h] at hx
  rw [Notes, result_bind_of_error h]
  exact hx

/-- A sequence of two evaluations, of which the first one succeeds. -/
lemma Notes.bind_of_ok {x : Eval σ α} {f : α → Eval σ β} {s t : Session σ} {a : α}
    {noted noted' : List γ} (hx : Notes log config x s noted) (h : x.result config s = (.ok a, t))
    (hf : Notes log config (f a) t noted') : Notes log config (x >>= f) s (noted ++ noted') := by
  rw [Notes, h] at hx
  rw [Notes, result_bind_of_ok h, hf, hx, List.append_assoc]

/-- The host notes nothing. -/
def NotesNothing (log : σ → List γ) (config : EngineConfig) (x : Eval σ α) : Prop :=
  ∀ s, Notes log config x s []

/-- An evaluation that leaves the state of the host alone. -/
lemma notesNothing_of_host {x : Eval σ α} (h : ∀ s, (x.result config s).2.host = s.host) :
    NotesNothing log config x := by
  intro s
  rw [Notes, h, List.append_nil]

/-- A sequence of two evaluations, of which the second one notes nothing. -/
lemma Notes.bind_nothing {x : Eval σ α} {f : α → Eval σ β} {s : Session σ} {noted : List γ}
    (hx : Notes log config x s noted) (hf : ∀ a, NotesNothing log config (f a)) :
    Notes log config (x >>= f) s noted := by
  rcases h : x.result config s with ⟨e | a, t⟩
  · exact hx.bind_of_error h
  · rw [← List.append_nil noted]
    exact hx.bind_of_ok h (hf a t)

/-- **The engine notes nothing** by itself. -/
theorem keptByEngine_notesNothing (log : σ → List γ) (config : EngineConfig) :
    KeptByEngine fun _ (x : Eval σ _) => x.NotesNothing log config := by
  refine keptByEngine_leadsTo (L := fun s t => log t.host = log s.host ++ [])
    ⟨fun _ => (List.append_nil _).symm, fun hst htu => ?_, fun _ _ => (List.append_nil _).symm⟩
    (fun _ _ => (List.append_nil _).symm) config
  rw [htu, hst, List.append_nil, List.append_nil]

end Eval

namespace Quantifier

open Eval

variable {q : Quantifier} {env : Context} {p : Context → Eval σ Value}
  {contribution : Frame → Session σ → List γ}

/-- The visitors do not concern the host. -/
lemma notesNothing_visitor (q : Quantifier) (acc : Tally q) (holds : Bool) (f : Frame) :
    NotesNothing log config (q.visitor acc holds f : Eval σ (ForInStep (Tally q))) := by
  refine notesNothing_of_host fun s => ?_
  cases q with
  | universal => cases holds <;> rfl
  | existential | unique => rfl

/-- Asking the predicate on a frame and passing the answer on. -/
lemma notes_advance {f : Frame} {s : Session σ} {noted : List γ}
    (hp : Notes log config (p (env.extend q.keyword f)) s noted) (acc : Tally q) :
    Notes log config (q.advance env p q.visitor acc f) s noted := by
  have hask : Notes log config (q.ask env p f) s noted :=
    hp.bind_nothing fun v => notesNothing_of_host fun t => by cases v.asBool? <;> rfl
  exact hask.bind_nothing fun holds => notesNothing_visitor q acc holds f

/-- A scan over combinations, by induction on these. -/
lemma notes_scanList
    (hp : ∀ f s, Notes log config (p (env.extend q.keyword f)) s (contribution f s))
    (ms : List Match) (acc : Tally q) (s : Session σ) :
    Notes log config (q.scanList env p q.visitor ms acc) s
      (traceFrom config q env p q.visitor contribution ms acc s) := by
  induction ms generalizing acc s with
  | nil => exact notesNothing_of_host (fun _ => rfl) s
  | cons m ms ih =>
    cases hs : s.interrupter.terminateRequested with
    | true =>
      rw [Notes, result_scanList_of_terminating hs, traceFrom_of_terminating hs, List.append_nil]
    | false =>
      cases hm : m.toFrame? with
      | none =>
        rw [Notes, result_scanList_of_none hs hm, traceFrom_of_none hs hm]
        exact ih acc s
      | some f =>
        rw [Notes, result_scanList_of_some_advance hs hm, traceFrom_of_some hs hm]
        have hadvance := notes_advance (hp f s) acc
        rcases h : (q.advance env p q.visitor acc f).result config s with ⟨e | step, t⟩
        · rw [List.append_nil]
          exact hadvance.bind_of_error h
        · cases step with
          | done acc' => exact hadvance.bind_of_ok h (notesNothing_of_host (fun _ => rfl) t)
          | yield acc' => exact hadvance.bind_of_ok h (ih acc' t)

/-- **A host that notes what its calls contribute** has noted the trace after the evaluation of a
quantification, if it notes nothing when it works out domains. -/
theorem notes_evaluate {bs : List (Binding σ)}
    (hbs : ∀ b ∈ bs, b.domain.HostSatisfies (NotesNothing log config))
    (hp : ∀ f s, Notes log config (p (env.extend q.keyword f)) s (contribution f s))
    (s : Session σ) :
    Notes log config (q.evaluate bs p env) s (q.trace config bs p env contribution s) := by
  obtain ⟨c, heval⟩ := exists_result_evaluate q bs p env config s
  rw [Notes, heval, trace]
  have hdraw := (keptByEngine_notesNothing log config).resolveEach hbs config.allowUnresolved env s
  rcases h : (Binding.resolveEach config.allowUnresolved env bs).result config s with
    ⟨e | values, t⟩
  · rw [Notes, h] at hdraw
    rw [result_scan_of_error h]
    exact hdraw
  · rw [Notes, h, List.append_nil] at hdraw
    have hscan := notes_scanList hp (Binding.combinations config.allPossibilities bs values)
      q.firstTally (if q.startsClear then t.forget else t)
    rw [result_scan_of_ok h, hscan, ← hdraw]
    cases q.startsClear <;> rfl

end Quantifier

end

namespace Predicate

open Eval

variable {log : σ → List Context} {config : EngineConfig}

/-- The host notes every call of one of its predicates, and nothing when it works out domains. -/
def NotesCalls (log : σ → List Context) (config : EngineConfig) : Predicate σ → Prop
  | .host run => ∀ env s, Notes log config (run env) s [env]
  | .compound parts run => ∀ env s, Notes log config (run (evaluations parts) env) s [env]
  | .shared p => p.NotesCalls log config
  | .quantified _ bs body =>
    (∀ b ∈ bs, b.domain.HostSatisfies (NotesNothing log config)) ∧ body.NotesCalls log config

/-- **A host that notes its calls** has noted, after the evaluation of a nest, the contexts in which
the nest calls its predicates, in this order.

**Proof sketch.** Induction on the nest. What a call of the body contributes to the trace is what
the host notes in it. -/
theorem notes_leafCalls :
    ∀ {p : Predicate σ}, p.NotesCalls log config → ∀ env s,
      Notes log config (p.evaluate env) s (p.leafCalls config env s)
  | .host _, h, env, s => h env s
  | .compound _ _, h, env, s => h env s
  | .shared p, h, env, s => notes_leafCalls (p := p) h env s
  | .quantified q bs body, h, env, s => by
    have hnest := Quantifier.notes_evaluate h.1
      (fun f t => notes_leafCalls h.2 (env.extend q.keyword f) t) s
    exact hnest.bind_nothing fun _ => notesNothing_of_host fun _ => rfl

end Predicate

end BoundedLogic
