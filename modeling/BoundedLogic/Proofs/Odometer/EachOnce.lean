import BoundedLogic.Proofs.Odometer.Enumeration

set_option relaxedAutoImplicit false
set_option autoImplicit false

/-!
# Every binding is worked out once

A start goes over the wheels, and a binding has as many wheels as patterns; it knows the values of
the binding it met last by the position of the binding, and not by the binding itself. So it works
out every binding, the first one first, however many patterns there are and whatever was found
before; and two bindings that are the same are worked out twice. Each is worked out in the context
of the quantification, so that none sees the names of another. The first that fails is the last that
is worked out.

What a domain does to the session while it is worked out can be observed. A host that notes every
time that it computes a domain has noted, after a start, the bindings that were worked out, each
once.

## Main definitions

* `BoundedLogic.Binding.WorkedOut` — bindings are worked out one after another.
* `BoundedLogic.Binding.NotedOnce` — what is noted meanwhile.

## Main results

* `BoundedLogic.Binding.workedOut_iff` — what that comes to where every binding has a pattern.
* `BoundedLogic.Odometer.start_works_out_each_once` — the bindings that a start works out.
-/

namespace BoundedLogic

namespace Binding

variable {σ : Type}

/-- Bindings are worked out from left to right, each once and all in the same context, and each in
the session that the one before has left. -/
inductive WorkedOut (lenient : Bool) (env : Context) (config : EngineConfig) :
    List (Binding σ) → Session σ → List (List Value) → Session σ → Prop
  | nil (s : Session σ) : WorkedOut lenient env config [] s [] s
  | cons {b : Binding σ} {bs : List (Binding σ)} {s t u : Session σ} {values : List Value}
    {rest : List (List Value)}
    (hb : (b.resolveValues lenient env).result config s = (.ok values, t))
    (hbs : WorkedOut lenient env config bs t rest u) :
    WorkedOut lenient env config (b :: bs) s (values :: rest) u

/-- Between the two sessions each of the bindings was worked out once, in this order: if every
working out of one of them adds a note to some log, whether it succeeds or not, then these are the
notes that were added. -/
def NotedOnce (lenient : Bool) (env : Context) (config : EngineConfig) (bs : List (Binding σ))
    (s t : Session σ) : Prop :=
  ∀ (α : Type) (log : Session σ → List α) (note : Binding σ → α),
    (∀ b ∈ bs, ∀ u, log ((b.resolveValues lenient env).result config u).2 = log u ++ [note b]) →
      log t = log s ++ bs.map note

variable {lenient : Bool} {env : Context} {config : EngineConfig} {bs : List (Binding σ)}
  {s t u : Session σ} {values : List (List Value)}

/-- Where every binding has a pattern that asks for its values, they are the values of the bindings
one after another.

**Proof sketch.** Induction on the bindings: one with a pattern draws the values of its domain. -/
lemma workedOut_iff (hbs : ∀ b ∈ bs, b.patterns ≠ []) :
    WorkedOut lenient env config bs s values t ↔
      (resolveEach lenient env bs).result config s = (.ok values, t) := by
  induction bs generalizing s values with
  | nil =>
    rw [resolveEach, Eval.result_pure, Prod.mk.injEq, Except.ok.injEq]
    constructor
    · rintro ⟨⟩
      exact ⟨rfl, rfl⟩
    · rintro ⟨rfl, rfl⟩
      exact .nil s
  | cons b bs ih =>
    obtain ⟨hb, hrest⟩ := List.forall_mem_cons.mp hbs
    constructor
    · rintro (_ | ⟨hvalues, hworked⟩)
      rw [resolveEach, Eval.result_bind_of_ok ((result_draw_eq_ok_iff hb).mpr hvalues),
        Eval.result_bind_of_ok ((ih hrest).mp hworked), Eval.result_pure]
    · intro h
      obtain ⟨vs, u, hdraw, h⟩ := Eval.result_bind_eq_ok_iff.mp h
      obtain ⟨rest, v, hworked, h⟩ := Eval.result_bind_eq_ok_iff.mp h
      obtain ⟨rfl, rfl⟩ : vs :: rest = values ∧ v = t := by simpa using h
      exact .cons ((result_draw_eq_ok_iff hb).mp hdraw) ((ih hrest).mpr hworked)

/-- Bindings that are worked out one after another are noted once. -/
lemma WorkedOut.notedOnce (h : WorkedOut lenient env config bs s values t) :
    NotedOnce lenient env config bs s t := by
  intro α log note hnotes
  induction h with
  | nil s => rw [List.map_nil, List.append_nil]
  | @cons b bs s t u vs rest hb _ ih =>
    obtain ⟨hnote, hnotes⟩ := List.forall_mem_cons.mp hnotes
    have hlog : log t = log s ++ [note b] := by rw [← hnote s, hb]
    rw [ih hnotes, hlog, List.map_cons, List.append_assoc, List.singleton_append]

/-- One that fails after them is noted once as well. -/
lemma NotedOnce.fail (h : NotedOnce lenient env config bs s t) {b : Binding σ} {cause : EvalError}
    (hfail : (b.resolveValues lenient env).result config t = (.error cause, u)) :
    NotedOnce lenient env config (bs ++ [b]) s u := by
  intro α log note hnotes
  obtain ⟨hbefore, hb⟩ := List.forall_mem_append.mp hnotes
  have hlog : log u = log t ++ [note b] := by
    rw [← List.forall_mem_singleton.mp hb t, hfail]
  rw [hlog, h α log note hbefore, List.map_append, List.append_assoc, List.map_singleton]

end Binding

namespace Odometer

variable {σ : Type} {bs : List (Binding σ)} {o : Odometer σ}

/-- **Every binding is worked out once.** Let every binding have a pattern. Whatever the odometer
was used for before, a start works the bindings out one after another,

* and it succeeds if all of them can be worked out; then the wheels hold what the patterns of each
  binding find in its values;
* otherwise the first that cannot be worked out ends it, and none after that is worked out. The
  failure is reported for the binding, unless it is a request to stop; and the wheels of the
  bindings before hold what their patterns find.

**Proof sketch.** What the start comes to is known from the values that the bindings draw
(`start_of_ok`, `start_of_error`), and these are the values of their domains (`workedOut_iff`). -/
theorem start_works_out_each_once (hbs : ∀ b ∈ bs, b.patterns ≠ []) (h : Reached bs o)
    (lenient : Bool) (env : Context) (config : EngineConfig) (s : Session σ) :
    (∃ values t o', Binding.WorkedOut lenient env config bs s values t ∧
      Binding.NotedOnce lenient env config bs s t ∧
      (o.start lenient env).result config s = (.ok (o', none), t) ∧
      faces o'.wheels =
        (List.zipWith (Binding.found config.allPossibilities) bs values).flatten) ∨
    ∃ before b after values u cause t o', bs = before ++ b :: after ∧
      Binding.WorkedOut lenient env config before s values u ∧
      (b.resolveValues lenient env).result config u = (.error cause, t) ∧
      Binding.NotedOnce lenient env config (before ++ [b]) s t ∧
      (o.start lenient env).result config s =
        (.ok (o', some (if cause.isCancelled then .cancelled else .binding b.text cause)), t) ∧
      (List.zipWith (Binding.found config.allPossibilities) before values).flatten <+:
        faces o'.wheels := by
  rcases hvalues : (Binding.resolveEach lenient env bs).result config s with ⟨e | values, t⟩
  · obtain ⟨before, b, after, values, u, rfl, hbefore, hfail⟩ :=
      Binding.exists_of_resolveEach_eq_error hvalues
    have hpatterns : ∀ d ∈ before, d.patterns ≠ [] := fun d hd => hbs d (List.mem_append_left _ hd)
    have hb : b.patterns ≠ [] := hbs b (List.mem_append_right _ List.mem_cons_self)
    have hworked := (Binding.workedOut_iff hpatterns).mpr hbefore
    obtain ⟨cause, hcause, rfl⟩ := (Binding.result_draw_eq_error_iff hb).mp hfail
    refine .inr ⟨before, b, after, values, u, cause, t, _, rfl, hworked, hcause,
      hworked.notedOnce.fail hcause, start_of_error h.fixedParts_eq hbefore hfail rfl, ?_⟩
    have hfaces := faces_loadedWheels config.allPossibilities 0 before values
    rw [← hfaces, faces, faces, List.map_append]
    exact List.prefix_append _ _
  · have hworked := (Binding.workedOut_iff hbs).mpr hvalues
    exact .inl ⟨values, t, _, hworked, hworked.notedOnce, start_of_ok h.fixedParts_eq hvalues,
      (atFirstReading_loadedWheels config.allPossibilities bs values).1⟩

/-- A binding of names to the elements of what the host computes for a domain. The host notes that
it does. -/
def noting (names : List String) (label : String) (found : Value) : Binding (List String) where
  patterns := names.map .name
  kind := .inSet
  domain := .computed label fun _ => do
    modify fun s => { s with host := s.host ++ [label] }
    pure found

/-- The bindings `x, y in set none, u, v in set pair, u, v in set pair, w in set broken, z in set
never`, where the value of `broken` is no set. -/
def bindingsNoting : List (Binding (List String)) :=
  [noting ["x", "y"] "none" (.set []), noting ["u", "v"] "pair" (.set [.int 1, .int 2]),
    noting ["u", "v"] "pair" (.set [.int 1, .int 2]), noting ["w"] "broken" (.int 3),
    noting ["z"] "never" (.set [.int 4])]

/-- A session in which nothing has been noted. -/
def nothingNoted : Session (List String) :=
  { interrupter := {}, counterexample := none, host := [] }

/-- A start computes the first four domains of these bindings, each once, though the first one is
empty and the second and third are the same. -/
theorem start_works_out_each_once_noting :
    (∀ b ∈ bindingsNoting, b.patterns ≠ []) ∧
      ∃ before b after values u cause t o', bindingsNoting = before ++ b :: after ∧
        Binding.WorkedOut false .root {} before nothingNoted values u ∧
        (b.resolveValues false .root).result {} u = (.error cause, t) ∧
        Binding.NotedOnce false .root {} (before ++ [b]) nothingNoted t ∧
        ((ofBindings bindingsNoting).start false .root).result {} nothingNoted =
          (.ok (o', some (if cause.isCancelled then .cancelled else .binding b.text cause)), t) ∧
        (List.zipWith (Binding.found false) before values).flatten <+: faces o'.wheels ∧
        t.host = ["none", "pair", "pair", "broken"] := by
  have hbs : ∀ b ∈ bindingsNoting, b.patterns ≠ [] := by
    simp [bindingsNoting, noting]
  refine ⟨hbs, ?_⟩
  have hfails : ∃ o' e t, ((ofBindings bindingsNoting).start false .root).result {} nothingNoted =
      (.ok (o', some e), t) ∧ t.host = ["none", "pair", "pair", "broken"] := ⟨_, _, _, rfl, rfl⟩
  obtain ⟨o', e, t, hfails, hnotes⟩ := hfails
  rcases start_works_out_each_once hbs .fresh false .root {} nothingNoted with
    ⟨values, u, o'', -, -, hstart, -⟩ |
    ⟨before, b, after, values, u, cause, t', o'', hsplit, hworked, hfail, hnoted, hstart, hfaces⟩
  · simp [hfails] at hstart
  · obtain ⟨-, rfl⟩ : _ ∧ t = t' := Prod.mk.inj (hfails.symm.trans hstart)
    exact ⟨before, b, after, values, u, cause, t, o'', hsplit, hworked, hfail, hnoted, hstart,
      hfaces, hnotes⟩

end Odometer

end BoundedLogic
