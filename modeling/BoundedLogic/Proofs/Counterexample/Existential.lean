import BoundedLogic.Proofs.Counterexample.Universal

set_option relaxedAutoImplicit false
set_option autoImplicit false

/-!
# What existential quantifications leave recorded

An existential or a unique quantification remembers how many frames are recorded when it starts, and
cuts the recorded frames back to that number when it ends. It looks at the number alone. So the
frames that were recorded before are there again exactly if they are still in front when the scan is
over. A predicate that only records more keeps them in front; one in which a universal
quantification is evaluated forgets them, and then they are lost, or others stand in their place.

## Main definitions

* `BoundedLogic.AskedUntil` — a predicate asked until enough answers are true.
* `BoundedLogic.Quantifier.wanted` — how many true answers end the scan of a quantification.

## Main results

* `BoundedLogic.Quantifier.existential_counterexample` — what an existential or a unique
  quantification leaves recorded, and when that is what was recorded before.
* `BoundedLogic.Quantifier.not_existential_keeps_recorded` — the frames recorded before can get
  lost.
-/

namespace BoundedLogic

variable {σ β : Type} {config : EngineConfig}

/-! ### Runs of a predicate until enough answers are true -/

/-- The predicate is asked on one frame after another until `k` answers are true or no frame is
left, from the first session to the second. The number between them is that of the true answers. -/
inductive AskedUntil (config : EngineConfig) (p : Frame → Eval σ Value) :
    Nat → List Frame → Session σ → Nat → Session σ → Prop
  | enough (fs : List Frame) (s : Session σ) : AskedUntil config p 0 fs s 0 s
  | noneLeft (k : Nat) (s : Session σ) : AskedUntil config p k [] s 0 s
  | no {k n : Nat} {f : Frame} {fs : List Frame} {s t u : Session σ}
      (h : (p f).result config s = (.ok (.bool false), t))
      (hs : AskedUntil config p (k + 1) fs t n u) : AskedUntil config p (k + 1) (f :: fs) s n u
  | yes {k n : Nat} {f : Frame} {fs : List Frame} {s t u : Session σ}
      (h : (p f).result config s = (.ok (.bool true), t))
      (hs : AskedUntil config p k fs t n u) : AskedUntil config p (k + 1) (f :: fs) s (n + 1) u

/-- A run that wants one true answer and gets it ends with it. -/
lemma AskedUntil.last {p : Frame → Eval σ Value} {fs : List Frame} {s t : Session σ}
    (h : AskedUntil config p 1 fs s 1 t) :
    ∃ f u, (p f).result config u = (.ok (.bool true), t) := by
  induction fs generalizing s with
  | nil => cases h
  | cons f fs ih =>
    cases h with
    | no _ hs => exact ih hs
    | yes h hs => cases hs <;> exact ⟨f, _, h⟩

/-- The evaluation only records more: frames that are recorded when it starts are in front when it
has given a value. -/
def OnlyRecords (config : EngineConfig) {α : Type} (x : Eval σ α) : Prop :=
  ∀ s a t L, x.result config s = (.ok a, t) → s.counterexample = some ⟨L⟩ →
    ∃ M, t.counterexample = some ⟨M⟩ ∧ L <+: M

/-- Asking a predicate that only records more only records more. -/
lemma AskedUntil.onlyRecords {p : Frame → Eval σ Value} (hp : ∀ f, OnlyRecords config (p f))
    {k n : Nat} {fs : List Frame} {s t : Session σ} (h : AskedUntil config p k fs s n t)
    {L : List Frame} (hs : s.counterexample = some ⟨L⟩) :
    ∃ M, t.counterexample = some ⟨M⟩ ∧ L <+: M := by
  induction h generalizing L with
  | enough | noneLeft => exact ⟨L, hs, List.prefix_rfl⟩
  | no h _ ih | yes h _ ih =>
    obtain ⟨M, hM, hLM⟩ := hp _ _ _ _ _ h hs
    obtain ⟨N, hN, hMN⟩ := ih hM
    exact ⟨N, hN, hLM.trans hMN⟩

namespace Quantifier

variable {q : Quantifier} {env : Context} {p : Context → Eval σ Value} {s t : Session σ}

/-- The number of true answers that ends the scan of an existential or a unique quantification. Both
are true if they end with one true answer. -/
def wanted : Quantifier → Nat
  | .universal => 0
  | .existential => 1
  | .unique => 2

/-- A visitor that leaves the session alone and stops when `k` answers were true. The number of
those met so far is read off its state. -/
structure StopsAt (visit : β → Bool → Frame → Eval σ (ForInStep β)) (config : EngineConfig)
    (k : Nat) (met : β → Nat) : Prop where
  /-- A false answer is passed over. -/
  no : ∀ acc f s, met acc < k → (visit acc false f).result config s = (.ok (.yield acc), s)
  /-- A true answer is counted. -/
  yes : ∀ acc f s, met acc < k → ∃ acc', met acc' = met acc + 1 ∧
    (visit acc true f).result config s =
      (.ok (if met acc' < k then .yield acc' else .done acc'), s)

/-- Existential quantifications stop at the first true answer. -/
lemma stopsAt_visitExistential :
    StopsAt (visitExistential (σ := σ)) config existential.wanted Bool.toNat where
  no acc f s _ := rfl
  yes acc f s h := by
    cases acc with
    | true => exact absurd h (by decide)
    | false => exact ⟨true, rfl, rfl⟩

/-- Unique quantifications stop at the second true answer. -/
lemma stopsAt_visitUnique : StopsAt (visitUnique (σ := σ)) config unique.wanted id where
  no acc f s h := by
    have hle : ¬ 1 < acc := Nat.not_lt.mpr (Nat.le_of_lt_succ h)
    simp [visitUnique, hle]
  yes acc f s h := by
    refine ⟨acc + 1, rfl, ?_⟩
    by_cases hmore : 1 < acc + 1
    · simp [visitUnique, wanted, hmore, show ¬ acc + 1 < 2 by omega]
    · simp [visitUnique, wanted, hmore, show acc + 1 < 2 by omega]

/-- **The scan of an existential or a unique quantification** asks the predicate until enough
answers are true.

**Proof sketch.** Induction on the combinations, where the scan still needs `k + 1` true answers.
One without a frame is passed over. For any other one the predicate is asked: a false answer leaves
`k + 1` to be met, a true one leaves `k`, and with none left the scan is over. -/
lemma askedUntil_of_result_scanList {visit : β → Bool → Frame → Eval σ (ForInStep β)}
    {total k : Nat} {met : β → Nat} (hvisit : StopsAt visit config total met) {ms : List Match}
    {acc r : β} (hk : met acc + (k + 1) = total)
    (h : (q.scanList env p visit ms acc).result config s = (.ok r, t)) :
    ∃ n, AskedUntil config (q.onFrame env p) (k + 1) (ms.filterMap Match.toFrame?) s n t ∧
      met r = met acc + n := by
  induction ms generalizing s acc k with
  | nil =>
    obtain ⟨rfl, rfl⟩ : acc = r ∧ s = t := by simpa [result_scanList_nil] using h
    exact ⟨0, .noneLeft _ s, rfl⟩
  | cons m ms ih =>
    rcases result_scanList_cons_eq_ok h with ⟨hm, h⟩ | ⟨frame, holds, u, hm, hp, h⟩
    · rw [List.filterMap_cons_none hm]
      exact ih hk h
    · rw [List.filterMap_cons_some hm]
      cases holds with
      | false =>
        rw [Eval.result_bind_of_ok (hvisit.no acc frame u (by omega))] at h
        obtain ⟨n, hrun, hmet⟩ := ih hk h
        exact ⟨n, .no hp hrun, hmet⟩
      | true =>
        obtain ⟨acc', hacc', hyes⟩ := hvisit.yes acc frame u (by omega)
        rw [Eval.result_bind_of_ok hyes] at h
        -- was this the last true answer that is wanted?
        cases k with
        | zero =>
          rw [if_neg (by omega)] at h
          obtain ⟨rfl, rfl⟩ : acc' = r ∧ u = t := by simpa using h
          exact ⟨1, .yes hp (.enough _ u), hacc'⟩
        | succ k =>
          rw [if_pos (by omega)] at h
          obtain ⟨n, hrun, hmet⟩ := ih (k := k) (by omega) h
          exact ⟨n + 1, .yes hp hrun, by omega⟩

/-- A scan that stops when enough answers are true, between remembering the number of the recorded
frames and cutting them back to it. -/
lemma restoring_scan_cases {visit : β → Bool → Frame → Eval σ (ForInStep β)} {k : Nat}
    {met : β → Nat} (hvisit : StopsAt visit config (k + 1) met) {bs : List (Binding σ)} {acc : β}
    (hacc : met acc = 0) (g : β → Bool) (hg : ∀ r, g r = (met r == 1)) {b : Bool} {L : List Frame}
    (hs : s.counterexample = some ⟨L⟩)
    (h : (do
      let mark ← Eval.counterexampleSize
      let r ← q.scan bs env p false visit acc
      Eval.truncateCounterexample mark
      pure (g r) : Eval σ Bool).result config s = (.ok b, t)) :
    ∃ values s₀ n v, (Binding.resolveEach config.allowUnresolved env bs).result config s =
        (.ok values, s₀) ∧
      AskedUntil config (q.onFrame env p) (k + 1)
        (Binding.frames config.allPossibilities bs values) s₀ n v ∧
      b = (n == 1) ∧ t = v.truncate L.length := by
  rw [Eval.result_bind_of_ok (Eval.result_counterexampleSize ..), hs,
    Eval.result_bind_eq_ok_iff] at h
  obtain ⟨r, v, hscan, h⟩ := h
  obtain ⟨values, s₀, hbs, hscan⟩ := result_scan_eq_ok_iff.mp hscan
  have hk : met acc + (k + 1) = k + 1 := by omega
  obtain ⟨n, hrun, hmet⟩ := askedUntil_of_result_scanList hvisit hk hscan
  rw [Option.map_some, Eval.result_bind_of_ok (Eval.result_truncateCounterexample_some ..)] at h
  obtain ⟨rfl, rfl⟩ : g r = b ∧ v.truncate L.length = t := by simpa [Counterexample.size] using h
  refine ⟨values, s₀, n, v, hbs, hrun, ?_, rfl⟩
  rw [hg, hmet, hacc, Nat.zero_add]

/-- An existential or a unique quantification that succeeds: its domains are worked out, the
predicate is asked until enough answers are true, and the recorded frames are cut back. It is true
if one answer was. -/
lemma evaluate_existential_cases (hq : q ≠ .universal) {bs : List (Binding σ)} {b : Bool}
    {L : List Frame} (hs : s.counterexample = some ⟨L⟩)
    (h : (q.evaluate bs p env).result config s = (.ok b, t)) :
    ∃ values s₀ n v, (Binding.resolveEach config.allowUnresolved env bs).result config s =
        (.ok values, s₀) ∧
      AskedUntil config (q.onFrame env p) q.wanted
        (Binding.frames config.allPossibilities bs values) s₀ n v ∧
      b = (n == 1) ∧ t = v.truncate L.length := by
  cases q with
  | universal => exact absurd rfl hq
  | existential =>
    exact restoring_scan_cases stopsAt_visitExistential rfl id (by rintro (_ | _) <;> rfl) hs h
  | unique => exact restoring_scan_cases stopsAt_visitUnique rfl (· == 1) (fun _ => rfl) hs h

/-- A quantification as a predicate succeeds as the quantification does. -/
lemma result_evaluate_quantified_eq_ok_iff {bs : List (Binding σ)} {body : Predicate σ} {b : Bool} :
    ((Predicate.quantified q bs body).evaluate env).result config s = (.ok (.bool b), t) ↔
      (q.evaluate bs body.evaluate env).result config s = (.ok b, t) := by
  rw [Predicate.evaluate, Eval.result_bind_eq_ok_iff]
  simp

/-- **What an existential or a unique quantification leaves recorded.** Its predicate is asked until
enough answers are true, and then the recorded frames are cut back to as many as there were before.
* So the frames recorded before are there again exactly if they are in front when the scan is over.
* That is so if its domains and its predicate only record more frames.
* But if it is an existential quantification over a universal one, and it is true, nothing is
  recorded in the end, whatever was recorded before. -/
theorem existential_counterexample (hq : q ≠ .universal) (bs : List (Binding σ)) (b : Bool)
    {L : List Frame} (hs : s.counterexample = some ⟨L⟩)
    (h : (q.evaluate bs p env).result config s = (.ok b, t)) :
    (∃ values s₀ n v, (Binding.resolveEach config.allowUnresolved env bs).result config s =
        (.ok values, s₀) ∧
      AskedUntil config (q.onFrame env p) q.wanted
        (Binding.frames config.allPossibilities bs values) s₀ n v ∧
      b = (n == 1) ∧ t = v.truncate L.length ∧
      (t.counterexample = some ⟨L⟩ ↔ ∃ M, v.counterexample = some ⟨M⟩ ∧ L <+: M)) ∧
    (OnlyRecords config (Binding.resolveEach config.allowUnresolved env bs) →
      (∀ f, OnlyRecords config (q.onFrame env p f)) → t.counterexample = some ⟨L⟩) ∧
    ∀ bs' body, q = .existential → p = (Predicate.quantified .universal bs' body).evaluate →
      b = true → t.NothingRecorded := by
  obtain ⟨values, s₀, n, v, hbs, hrun, hb, rfl⟩ := evaluate_existential_cases hq hs h
  refine ⟨⟨values, s₀, n, v, hbs, hrun, hb, rfl, Session.truncate_counterexample_eq_iff⟩, ?_, ?_⟩
  · intro hdomains hp
    obtain ⟨M, hM, hLM⟩ := hdomains _ _ _ _ hbs hs
    obtain ⟨N, hN, hMN⟩ := hrun.onlyRecords hp hM
    exact Session.truncate_counterexample_eq_iff.mpr ⟨N, hN, hLM.trans hMN⟩
  · rintro bs' body rfl rfl rfl
    obtain rfl : n = 1 := by simpa using hb.symm
    -- the scan ends with the universal quantification that is true, and that forgets all frames
    obtain ⟨f, u, hlast⟩ := hrun.last
    have huniversal := result_evaluate_quantified_eq_ok_iff.mp hlast
    exact (nothingRecorded_of_evaluate_universal huniversal).truncate L.length

/-- The predicate `forall y in set {1} & true`. -/
def alwaysY : Predicate Unit :=
  .quantified .universal [.overIntegers ["y"] [1]] (.host fun _ => pure (.bool true))

/-- In `exists x in set {1} & forall y in set {1} & true` nothing is recorded in the end, though a
frame was recorded before. -/
theorem existential_counterexample_alwaysY :
    existential ≠ .universal ∧
      (Session.running [⟨[("old", .int 0)]⟩]).counterexample = some ⟨[⟨[("old", .int 0)]⟩]⟩ ∧
      (existential.evaluate [.overIntegers ["x"] [1]] alwaysY.evaluate .root).result {}
        (.running [⟨[("old", .int 0)]⟩]) = (.ok true, .running []) ∧
      (Session.running []).NothingRecorded := by
  have hrun : (existential.evaluate [.overIntegers ["x"] [1]] alwaysY.evaluate .root).result {}
      (.running [⟨[("old", .int 0)]⟩]) = (.ok true, .running []) := rfl
  exact ⟨by decide, rfl, hrun,
    (existential_counterexample (by decide) _ true rfl hrun).2.2 _ _ rfl rfl rfl⟩

/-- An existential quantification does not always leave recorded what was recorded before. -/
theorem not_existential_keeps_recorded :
    ¬ ∀ (q : Quantifier) (bs : List (Binding Unit)) (p : Predicate Unit) (s t : Session Unit)
      (L : List Frame) (b : Bool), q ≠ .universal → s.counterexample = some ⟨L⟩ →
      (q.evaluate bs p.evaluate .root).result {} s = (.ok b, t) → t.counterexample = some ⟨L⟩ := by
  intro h
  have hrun : (existential.evaluate [.overIntegers ["x"] [1]] alwaysY.evaluate .root).result {}
      (.running [⟨[("old", .int 0)]⟩]) = (.ok true, .running []) := rfl
  have hsame := h _ _ _ _ _ _ _ (by decide) rfl hrun
  simp [Session.running] at hsame

end Quantifier

end BoundedLogic
