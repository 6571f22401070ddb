import BoundedLogic.Proofs.Quantifier.LockStep

set_option relaxedAutoImplicit false
set_option autoImplicit false

/-!
# The recorded frames do not matter

Whether a counterexample is wanted, and what is recorded when an evaluation starts, has no influence
on how the evaluation of a nest of quantifications ends, nor on the contexts in which the predicates
of the host are called. All quantifications of a nest write, clear and cut back the same recorded
frames, but none of them looks at more than their number, and only to cut them back to it.

## Main results

* `BoundedLogic.Predicate.frames_do_not_matter` — evaluations with different frames recorded, or
  none wanted.
-/

namespace BoundedLogic

open Eval Session

variable {σ : Type} {H : σ → σ → Prop} {config : EngineConfig} {s s' : Session σ}

namespace Quantifier

/-- A step of a loop with the account left as it is. -/
lemma mapStep_id {β : Type} : mapStep (id : β → β) = id :=
  funext fun step => by cases step <;> rfl

/-- A quantification over a predicate that ignores the recorded frames goes in lock-step with
itself. -/
lemma advanceInStep_self (q : Quantifier) (env : Context) {p : Context → Eval σ Value}
    (hp : ∀ c, (p c).IgnoresFrames H) : AdvanceInStep H config q q env p p id := by
  intro acc f s s' h
  have hkept := keptByEngine_ignoresFrames H
  have hvisit : ∀ holds, (q.visitor acc holds f).IgnoresFrames H := by
    cases q with
    | universal =>
      intro holds
      cases holds <;> exact hkept.bind (hkept.modifyCounterexample _) fun _ => hkept.pure _
    | existential | unique => exact fun holds => hkept.pure _
  have hcall : (q.advance env p q.visitor acc f).IgnoresFrames H :=
    hkept.bind (hkept.ask hp f) hvisit
  rw [mapStep_id]
  exact (hcall config s s' h).translates

end Quantifier

namespace Predicate

/-- The leaves of a nest are called in the same contexts.

**Proof sketch.** Induction on the nest. As every call of the body ends in the same way whatever is
recorded, the scan makes the same calls, and each of them leads to the same calls of the leaves. -/
lemma leafCalls_eq :
    ∀ {p : Predicate σ}, p.HostSatisfies (IgnoresFrames H) → ∀ env s s',
      AlikeButForFrames H s s' → p.leafCalls config env s = p.leafCalls config env s'
  | .host _, _, _, _, _, _ => rfl
  | .compound _ _, _, _, _, _, _ => rfl
  | .shared p, hp, env, s, s', h => leafCalls_eq (p := p) hp env s s' h
  | .quantified q bs body, hp, env, s, s', h => by
    have hkept := keptByEngine_ignoresFrames H
    have hadvance : Quantifier.AdvanceInStep H config q q env body.evaluate body.evaluate id :=
      Quantifier.advanceInStep_self q env (hkept.predicate hp.2)
    exact hadvance.trace (fun lenient => hkept.resolveEach hp.1 lenient env) rfl
      (fun f t t' ht => leafCalls_eq hp.2 (env.extend q.keyword f) t t' ht) h

/-- **The recorded frames do not matter.** Let what the host evaluates for a nest of quantifications
ignore the recorded frames. From sessions in which different frames are recorded, or in one of which
none are wanted, the evaluation of the nest ends in the same way; it leaves sessions that differ in
no more than these did; and the predicates of the host are called in the same contexts, one after
another.

**Proof sketch.** All that the engine does by itself ignores the recorded frames
(`keptByEngine_ignoresFrames`), and so does the evaluation of the nest and of every nest in it. -/
theorem frames_do_not_matter {p : Predicate σ} (hp : p.HostSatisfies (IgnoresFrames H))
    (config : EngineConfig) (env : Context) (h : AlikeButForFrames H s s') :
    (∃ r t t', (p.evaluate env).result config s = (r, t) ∧
      (p.evaluate env).result config s' = (r, t') ∧ AlikeButForFrames H t t') ∧
    p.leafCalls config env s = p.leafCalls config env s' :=
  ⟨(keptByEngine_ignoresFrames H).predicate hp env config s s' h, leafCalls_eq hp env s s' h⟩

/-- The predicate `forall x in set {1, 2} & exists y in set {2, 1} & x = y`, whose innermost part
also records the frame it is called on. -/
def equalXYRecorded : Predicate Unit :=
  .quantified .universal [.overIntegers ["x"] [1, 2]] <|
    .quantified .existential [.overIntegers ["y"] [2, 1]] <| .host fun c => do
      recordFrame c.frame
      match c.lookup? "x", c.lookup? "y" with
      | some (.int i), some (.int j) => pure (.bool (i == j))
      | _, _ => throw (.unresolvedName "x")

/-- It is true, and calls its innermost part on three pairs, with a frame recorded before and where
no frames are wanted. -/
theorem frames_do_not_matter_equalXY :
    let scope := fun x y : Int64 =>
      (Context.root.extend "forall" ⟨[("x", .int x)]⟩).extend "exists" ⟨[("y", .int y)]⟩
    let s := Session.running [⟨[("old", .int 0)]⟩]
    let s' : Session Unit := { interrupter := {}, counterexample := none, host := () }
    equalXYRecorded.HostSatisfies (IgnoresFrames Eq) ∧ AlikeButForFrames Eq s s' ∧
      ((equalXYRecorded.evaluate .root).result {} s').1 = .ok (.bool true) ∧
      equalXYRecorded.leafCalls {} .root s' = [scope 1 2, scope 1 1, scope 2 2] := by
  intro scope s s'
  have hkept := keptByEngine_ignoresFrames (σ := Unit) Eq
  have hp : equalXYRecorded.HostSatisfies (IgnoresFrames Eq) := by
    refine ⟨List.forall_mem_singleton.mpr trivial, List.forall_mem_singleton.mpr trivial,
      fun c => hkept.bind (hkept.modifyCounterexample _) fun _ => ?_⟩
    split
    · exact hkept.pure _
    · exact hkept.throw _
  have h : AlikeButForFrames Eq s s' := ⟨rfl, rfl⟩
  have hrun : ((equalXYRecorded.evaluate .root).result {} s).1 = .ok (.bool true) := rfl
  have hcalls : equalXYRecorded.leafCalls {} .root s = [scope 1 2, scope 1 1, scope 2 2] := rfl
  obtain ⟨⟨r, t, t', hs, hs', -⟩, hsame⟩ := frames_do_not_matter hp {} .root h
  rw [hs] at hrun
  rw [hs']
  exact ⟨hp, h, hrun, hsame.symm.trans hcalls⟩

end Predicate

end BoundedLogic
