import BoundedLogic.Proofs.Checking.NoTrace
import BoundedLogic.Proofs.Interrupt.Pauses

set_option relaxedAutoImplicit false
set_option autoImplicit false

/-!
# Batches of checks

The checks of a batch share the interrupter and the state of the host, and each changes the bindings
of its obligation. None of that is felt by the others: the bindings are changed back, a reproducible
evaluation does not depend on the state of the host, and as long as nobody sends a command the
interrupter stays as it is. So every obligation of a batch gets the report that it gets when it is
checked alone, in whatever order the obligations are taken up, and the summary counts these reports.

An enumeration of subsets that finds the interrupter paused waits for a command, and goes by it.
That nobody sends a command means, under a pause, that none of the checks comes to such a wait.

## Main definitions

* `BoundedLogic.Outcome.Kind`, `BoundedLogic.Summary.Tallies` — the five kinds of outcome, and a
  summary that counts them.
* `BoundedLogic.Session.Undisturbed`, `BoundedLogic.Eval.SendsNothing` — no command has been sent,
  unless a pause was waited out.
* `BoundedLogic.Checker.alone` — the report of an obligation that is checked alone.
* `BoundedLogic.Checker.ChecksAlike` — a check that can be made before or after others.

## Main results

* `BoundedLogic.Summary.tallies_ofReports` — each report is counted in exactly one counter.
* `BoundedLogic.Checker.checksAlike` — which checks can be made before or after others.
* `BoundedLogic.Checker.batch_reports_as_alone` — the reports of a batch are those of single checks.
-/

namespace BoundedLogic

variable {σ : Type}

/-! ### Summaries -/

/-- The kinds of outcome, each of which has a counter. -/
inductive Outcome.Kind where
  /-- Found true. -/
  | passed
  /-- Found false. -/
  | failed
  /-- Not evaluated. -/
  | unchecked
  /-- Failed to evaluate. -/
  | error
  /-- Told to stop. -/
  | interrupted
  deriving DecidableEq, Repr

/-- The kind of an outcome. -/
def Outcome.kind : Outcome → Kind
  | .passed => .passed
  | .failed _ => .failed
  | .unchecked => .unchecked
  | .error _ => .error
  | .interrupted => .interrupted

namespace Summary

/-- The counter for the outcomes of a kind. -/
def counter (s : Summary) : Outcome.Kind → Nat
  | .passed => s.passed
  | .failed => s.failed
  | .unchecked => s.unchecked
  | .error => s.errors
  | .interrupted => s.interrupted

/-- One more outcome is counted in the counter for its kind, and in no other one. -/
lemma counter_count (s : Summary) (outcome : Outcome) (k : Outcome.Kind) :
    (s.count outcome).counter k = s.counter k + if outcome.kind = k then 1 else 0 := by
  cases outcome <;> cases k <;> simp [count, counter, Outcome.kind]

/-- The counters after some reports have been counted, by induction on the reports. -/
lemma counter_foldl (rs : List Report) (s : Summary) (k : Outcome.Kind) :
    (rs.foldl (fun s r => s.count r.outcome) s).counter k =
      s.counter k + rs.countP fun r => r.outcome.kind = k := by
  induction rs generalizing s with
  | nil => rfl
  | cons r rs ih =>
    rw [List.foldl_cons, ih, counter_count, List.countP_cons]
    by_cases h : r.outcome.kind = k
    · simp [h]
      omega
    · simp [h]

/-- The summary counts the reports of a list. -/
structure Tallies (s : Summary) (rs : List Report) : Prop where
  /-- It contains these reports. -/
  reports_eq : s.reports = rs
  /-- The total is their number. -/
  total_eq : s.total = rs.length
  /-- Each counter is the number of reports whose outcome is of its kind. -/
  counter_eq : ∀ k, s.counter k = rs.countP fun r => r.outcome.kind = k
  /-- The five counters add up to the total. -/
  sum_eq : s.passed + s.failed + s.unchecked + s.errors + s.interrupted = s.total
  /-- All are said to have passed if none of them failed, could not be evaluated, or was
  interrupted. -/
  allPassed_iff : s.allPassed = true ↔ ∀ r ∈ rs, r.outcome.kind ≠ .failed ∧
    r.outcome.kind ≠ .error ∧ r.outcome.kind ≠ .interrupted

/-- The reports of the five kinds are all reports. -/
lemma countP_kind_add (rs : List Report) :
    (rs.countP fun r => r.outcome.kind = .passed) + (rs.countP fun r => r.outcome.kind = .failed) +
      (rs.countP fun r => r.outcome.kind = .unchecked) +
      (rs.countP fun r => r.outcome.kind = .error) +
      (rs.countP fun r => r.outcome.kind = .interrupted) = rs.length := by
  induction rs with
  | nil => rfl
  | cons r rs ih =>
    simp only [List.countP_cons, List.length_cons]
    cases r.outcome.kind <;> simp <;> omega

/-- **The summary of a list of reports** counts them. -/
theorem tallies_ofReports (rs : List Report) : (ofReports rs).Tallies rs := by
  have hcounter : ∀ k, (ofReports rs).counter k = rs.countP fun r => r.outcome.kind = k := by
    intro k
    have hfold := counter_foldl rs empty k
    have hempty : empty.counter k = 0 := by cases k <;> rfl
    rw [hempty, Nat.zero_add] at hfold
    rw [← hfold]
    cases k <;> rfl
  have hsum : (ofReports rs).passed + (ofReports rs).failed + (ofReports rs).unchecked +
      (ofReports rs).errors + (ofReports rs).interrupted = (ofReports rs).total := by
    have hkinds := countP_kind_add rs
    simp only [← hcounter] at hkinds
    exact hkinds
  refine ⟨rfl, rfl, hcounter, hsum, ?_⟩
  -- what is neither passed nor unchecked is of one of the other kinds
  have hothers : (ofReports rs).allPassed = true ↔ (ofReports rs).counter .failed = 0 ∧
      (ofReports rs).counter .error = 0 ∧ (ofReports rs).counter .interrupted = 0 := by
    simp only [allPassed, counter, beq_iff_eq]
    omega
  rw [hothers, hcounter, hcounter, hcounter]
  simp only [List.countP_eq_zero, decide_eq_true_eq]
  constructor
  · rintro ⟨hfailed, herror, hinterrupted⟩ r hr
    exact ⟨hfailed r hr, herror r hr, hinterrupted r hr⟩
  · intro h
    exact ⟨fun r hr => (h r hr).1, fun r hr => (h r hr).2.1, fun r hr => (h r hr).2.2⟩

end Summary

/-! ### Checks that send nothing -/

/-- A checking step after another one, of which the result is known. -/
lemma Checking.run_bind_of_eq {α β : Type} {x : Checking σ α} {f : α → Checking σ β}
    {s t : Session σ} {a : α} (h : x.run s = (a, t)) : (x >>= f).run s = (f a).run t := by
  rw [StateT.run_bind, h]
  rfl

/-- A wait under a pause is recorded. -/
lemma Interrupter.length_events_lt_wait {i : Interrupter} (h : i.level = .paused)
    (reason : String) : i.events.length < (i.wait reason).events.length := by
  have hunblock := (unblock_spec (i := i.emit (.paused reason)) h i.replies).2
  rw [wait, if_pos h, hunblock]
  simp [emit]

/-- Between the two sessions nobody has sent a command, unless a pause was waited out, which is
recorded then. -/
def Session.Undisturbed (s t : Session σ) : Prop :=
  t.interrupter = s.interrupter ∨
    (s.interrupter.level = .paused ∧ s.interrupter.events.length < t.interrupter.events.length)

/-- Enumerations that ask whether to stop do no more than that. -/
lemma Session.isPassage_undisturbed : Eval.IsPassage (@Session.Undisturbed σ) where
  refl s := .inl rfl
  trans := by
    rintro s t u (hst | ⟨hpaused, hlt⟩) (htu | ⟨hpaused', hlt'⟩)
    · exact .inl (htu.trans hst)
    · rw [hst] at hpaused' hlt'
      exact .inr ⟨hpaused', hlt'⟩
    · rw [← htu] at hlt
      exact .inr ⟨hpaused, hlt⟩
    · exact .inr ⟨hpaused, Nat.lt_trans hlt hlt'⟩
  ask reason s := by
    show (s.interrupter.shouldTerminate reason).2 = s.interrupter ∨ (s.interrupter.level = .paused ∧
      s.interrupter.events.length < (s.interrupter.shouldTerminate reason).2.events.length)
    rw [Interrupter.shouldTerminate_snd]
    by_cases h : s.interrupter.level = .paused
    · exact .inr ⟨h, Interrupter.length_events_lt_wait h reason⟩
    · exact .inl (by rw [Interrupter.wait, if_neg h])

/-- The evaluation sends no command. It may wait under a pause. -/
def Eval.SendsNothing (config : EngineConfig) {α : Type} (x : Eval σ α) : Prop :=
  x.LeadsTo Session.Undisturbed config

/-- **The engine sends no command.** -/
theorem Eval.keptByEngine_sendsNothing (config : EngineConfig) :
    Eval.KeptByEngine fun _ (x : Eval σ _) => x.SendsNothing config :=
  Eval.keptByEngine_leadsTo Session.isPassage_undisturbed (fun _ _ => .inl rfl) config

/-- What the host computes for the obligation sends no command. -/
def Obligation.SendsNothing (config : EngineConfig) (o : Obligation σ) : Prop :=
  o.claim.toPredicate.HostSatisfies (Eval.SendsNothing config)

namespace Checker

variable (c : Checker) {s u : Session σ} {o : Obligation σ} {os : List (Obligation σ)}

/-- Nor does a check of the obligation then. -/
lemma undisturbed_check (h : o.SendsNothing c.config.engine) (s : Session σ) :
    s.Undisturbed ((c.check o).run s).2 := by
  cases ho : o.isCheckable with
  | false =>
    rw [run_check_of_not_isCheckable c ho]
    exact .inl rfl
  | true =>
    have hevaluate : ((o.mapBindings c.applyRange).claim.evaluate
        (.withFrame "global" c.globals)).SendsNothing c.config.engine :=
      c.kept_evaluate (Eval.keptByEngine_sendsNothing c.config.engine) h _
    rw [run_check_of_isCheckable c ho rfl]
    exact hevaluate (beginning s)

/-- Nobody else sends a command in the course of the check either. It takes one to end a wait, so if
the interrupter is paused then the check must not come to a wait, which would be recorded. -/
def NeverWaits (s : Session σ) (o : Obligation σ) : Prop :=
  s.interrupter.level = .paused →
    ((c.check o).run s).2.interrupter.events = s.interrupter.events

/-- What is reported of an obligation that is checked alone. -/
def alone (s : Session σ) (o : Obligation σ) : Report :=
  ((c.check o).run s).1.1

/-- Wherever the interrupter is like it is in `s`, a check reports of the obligation what it reports
there. It leaves the obligation as it is, and the interrupter like that. -/
def ChecksAlike (s : Session σ) (o : Obligation σ) : Prop :=
  ∀ u : Session σ, u.interrupter.Alike s.interrupter →
    ∃ t, (c.check o).run u = ((c.alone s o, o), t) ∧ t.interrupter.Alike s.interrupter

/-- **Checks that can be made before or after others**: those of obligations without overrides, for
which what the host computes is reproducible and sends no command, if there is nothing to wait
for. -/
theorem checksAlike (hoverride : o.NotOverridden) (hpure : o.Reproducible)
    (hsends : o.SendsNothing c.config.engine) (hwaits : c.NeverWaits s o) :
    c.ChecksAlike s o := by
  intro u hu
  obtain ⟨⟨r, o'⟩, t, t', ht, ht', halike⟩ := c.exists_check_of_alike hpure hu
  obtain rfl : c.alone s o = r := by rw [alone, ht']
  obtain rfl : o' = o := by
    have hsame := c.obligation_check hoverride s
    rwa [ht'] at hsame
  refine ⟨t, ht, ?_⟩
  have hstays : t'.interrupter = s.interrupter := by
    have hundisturbed := c.undisturbed_check hsends s
    rw [ht'] at hundisturbed
    rcases hundisturbed with hsame | ⟨hpaused, hlt⟩
    · exact hsame
    · have hnothing := hwaits hpaused
      rw [ht'] at hnothing
      rw [hnothing] at hlt
      exact absurd hlt (Nat.lt_irrefl _)
  rwa [hstays] at halike

/-! ### One after another -/

section

variable {c} (h : ∀ o ∈ os, c.ChecksAlike s o) (hu : u.interrupter.Alike s.interrupter)

include h hu

/-- Checks in the order of the obligations, by induction on these. -/
lemma exists_checkInOrder :
    ∃ t, (c.checkInOrder os).run u = ((os.map (c.alone s), os), t) ∧
      t.interrupter.Alike s.interrupter := by
  induction os generalizing u with
  | nil => exact ⟨u, rfl, hu⟩
  | cons o os ih =>
    obtain ⟨ho, hos⟩ := List.forall_mem_cons.mp h
    obtain ⟨v, hcheck, hv⟩ := ho u hu
    obtain ⟨t, hrest, ht⟩ := ih hos hv
    refine ⟨t, ?_, ht⟩
    rw [checkInOrder, Checking.run_bind_of_eq hcheck]
    exact Checking.run_bind_of_eq hrest

/-- Checks of the obligations with given numbers. Those with others are passed over. -/
lemma exists_checkNumbered (numbers : List Nat) :
    ∃ t, (c.checkNumbered numbers os).run u =
        (((os.filter fun o => numbers.contains o.number).map (c.alone s), os), t) ∧
      t.interrupter.Alike s.interrupter := by
  induction os generalizing u with
  | nil => exact ⟨u, rfl, hu⟩
  | cons o os ih =>
    obtain ⟨ho, hos⟩ := List.forall_mem_cons.mp h
    rw [checkNumbered, List.filter_cons]
    split
    case isTrue =>
      obtain ⟨v, hcheck, hv⟩ := ho u hu
      obtain ⟨t, hrest, ht⟩ := ih hos hv
      refine ⟨t, ?_, ht⟩
      rw [Checking.run_bind_of_eq hcheck]
      exact Checking.run_bind_of_eq hrest
    case isFalse =>
      obtain ⟨t, hrest, ht⟩ := ih hos hu
      exact ⟨t, Checking.run_bind_of_eq hrest, ht⟩

end

/-! ### In any order -/

/-- The obligations, with reports beside those at the positions taken up so far. -/
def slots (s : Session σ) (os : List (Obligation σ)) (done : List Nat) :
    List (Obligation σ × Option Report) :=
  os.mapIdx fun i o => (o, if i ∈ done then some (c.alone s o) else none)

/-- The slot at a position. -/
lemma getElem?_slots (done : List Nat) (i : Nat) :
    (c.slots s os done)[i]? =
      os[i]?.map fun o => (o, if i ∈ done then some (c.alone s o) else none) :=
  List.getElem?_mapIdx

/-- One more position. -/
lemma set_slots {i : Nat} (hget : os[i]? = some o) (done : List Nat) :
    (c.slots s os done).set i (o, some (c.alone s o)) = c.slots s os (done ++ [i]) := by
  refine List.ext_getElem? fun j => ?_
  rw [List.getElem?_set, getElem?_slots, getElem?_slots]
  by_cases hij : i = j
  · subst hij
    obtain ⟨hlt, rfl⟩ := List.getElem?_eq_some_iff.mp hget
    simp [slots, hlt]
  · have hji : j ≠ i := Ne.symm hij
    simp [hij, hji]

/-- A position without an obligation. -/
lemma slots_append_of_none {i : Nat} (hget : os[i]? = none) (done : List Nat) :
    c.slots s os (done ++ [i]) = c.slots s os done := by
  refine List.ext_getElem? fun j => ?_
  rw [getElem?_slots, getElem?_slots]
  cases hj : os[j]? with
  | none => rfl
  | some o =>
    have hji : j ≠ i := by
      rintro rfl
      rw [hget] at hj
      cases hj
    simp [hji]

/-- When every position has been taken up there is a report beside each obligation. -/
lemma slots_of_all {done : List Nat} (hdone : ∀ i < os.length, i ∈ done) :
    c.slots s os done = os.map fun o => (o, some (c.alone s o)) := by
  refine List.ext_getElem? fun i => ?_
  rw [getElem?_slots, List.getElem?_map]
  cases hget : os[i]? with
  | none => rfl
  | some o =>
    obtain ⟨hlt, -⟩ := List.getElem?_eq_some_iff.mp hget
    simp [hdone i hlt]

section

variable {c} (h : ∀ o ∈ os, c.ChecksAlike s o) (hu : u.interrupter.Alike s.interrupter)

include h hu

/-- **One step of a schedule** puts the report of the obligation beside it that it gets alone,
whichever have been taken up before. -/
lemma exists_checkAt (done : List Nat) (i : Nat) :
    ∃ t, (c.checkAt (c.slots s os done) i).run u = (c.slots s os (done ++ [i]), t) ∧
      t.interrupter.Alike s.interrupter := by
  rw [checkAt, getElem?_slots]
  cases hget : os[i]? with
  | none =>
    refine ⟨u, ?_, hu⟩
    rw [slots_append_of_none c hget]
    rfl
  | some o =>
    obtain ⟨t, hcheck, ht⟩ := h o (List.mem_of_getElem? hget) u hu
    rw [← set_slots c hget]
    exact ⟨t, Checking.run_bind_of_eq hcheck, ht⟩

/-- **A whole schedule** does so, by induction on its positions. -/
lemma exists_foldlM_checkAt (schedule done : List Nat) :
    ∃ t, (schedule.foldlM c.checkAt (c.slots s os done)).run u =
        (c.slots s os (done ++ schedule), t) ∧ t.interrupter.Alike s.interrupter := by
  induction schedule generalizing done u with
  | nil =>
    refine ⟨u, ?_, hu⟩
    rw [List.append_nil]
    rfl
  | cons i schedule ih =>
    obtain ⟨v, hstep, hv⟩ := exists_checkAt h hu done i
    obtain ⟨t, hrest, ht⟩ := ih hv (done ++ [i])
    refine ⟨t, ?_, ht⟩
    rw [List.append_assoc, List.singleton_append] at hrest
    rw [List.foldlM_cons, Checking.run_bind_of_eq hstep, hrest]

/-- Checks in the order of a schedule that takes up every position, be it more than once. -/
lemma exists_checkScheduled {schedule : List Nat} (hall : ∀ i < os.length, i ∈ schedule) :
    ∃ t, (c.checkScheduled schedule os).run u = ((os.map (c.alone s), os), t) ∧
      t.interrupter.Alike s.interrupter := by
  have hfresh : (os.map fun o => (o, none)) = c.slots s os [] := by
    refine List.ext_getElem? fun i => ?_
    rw [getElem?_slots, List.getElem?_map]
    simp
  obtain ⟨t, hrun, ht⟩ := exists_foldlM_checkAt h hu schedule []
  rw [List.nil_append, slots_of_all c hall] at hrun
  refine ⟨t, ?_, ht⟩
  rw [checkScheduled, hfresh, Checking.run_bind_of_eq hrun, List.filterMap_map, List.map_map]
  simp only [Function.comp_def, List.filterMap_eq_map', List.map_id']
  rfl

end

/-! ### Batches -/

/-- The checker, told to check obligations side by side or not to. -/
def withParallel (parallel : Bool) : Checker :=
  { c with config := { c.config with parallel } }

/-- A report has the number of its obligation. -/
lemma number_alone (s : Session σ) (o : Obligation σ) : (c.alone s o).number = o.number := by
  rw [alone]
  cases ho : o.isCheckable with
  | false => rw [run_check_of_not_isCheckable c ho]
  | true => rw [run_check_of_isCheckable c ho rfl]

/-- **A selection with an unknown number** evaluates nothing, and the first such number is named. -/
lemma checkSelected_of_unknown {before after : List Nat} {n : Nat}
    (hbefore : ∀ m ∈ before, ∃ o ∈ os, o.number = m) (hn : ∀ o ∈ os, o.number ≠ n) :
    c.checkSelected os (before ++ n :: after) =
      pure (.error (.unknownObligation n os.length), os) := by
  have hfirst : unknownNumber? os (before ++ n :: after) = some n := by
    rw [unknownNumber?, List.find?_eq_some_iff_append]
    refine ⟨by simpa using hn, before, after, rfl, fun m hm => ?_⟩
    obtain ⟨o, ho, hom⟩ := hbefore m hm
    simpa using ⟨o, ho, hom⟩
  rw [checkSelected, hfirst]

/-- **A selection of known numbers** gives the reports with these numbers, in the order of the
obligations. -/
lemma fst_run_checkSelected (h : ∀ o ∈ os, c.ChecksAlike s o)
    (hu : u.interrupter.Alike s.interrupter) {numbers : List Nat}
    (hnumbers : ∀ n ∈ numbers, ∃ o ∈ os, o.number = n) :
    ((c.checkSelected os numbers).run u).1 =
      (.ok (.ofReports ((os.map (c.alone s)).filter fun r => numbers.contains r.number)), os) := by
  have hknown : unknownNumber? os numbers = none := by
    simpa [unknownNumber?, List.find?_eq_none] using hnumbers
  obtain ⟨t, hrun, -⟩ := exists_checkNumbered h hu numbers
  have hnumber : (fun r => numbers.contains r.number) ∘ c.alone s =
      fun o : Obligation σ => numbers.contains o.number :=
    funext fun o => congrArg numbers.contains (c.number_alone s o)
  rw [checkSelected, hknown, List.filter_map, hnumber]
  exact congrArg Prod.fst (Checking.run_bind_of_eq hrun)

/-- **Checks of all obligations**, side by side or one by one. -/
lemma fst_run_checkAll (h : ∀ o ∈ os, c.ChecksAlike s o) (hu : u.interrupter.Alike s.interrupter) :
    ((c.checkAll os).run u).1 = (.ofReports (os.map (c.alone s)), os) := by
  rw [checkAll]
  split
  case isTrue =>
    have hall : ∀ i < os.length, i ∈ List.range os.length := by simp
    obtain ⟨t, hrun, -⟩ := exists_checkScheduled h hu hall
    exact congrArg Prod.fst (Checking.run_bind_of_eq hrun)
  case isFalse =>
    obtain ⟨t, hrun, -⟩ := exists_checkInOrder h hu
    exact congrArg Prod.fst (Checking.run_bind_of_eq hrun)

/-- **A batch is reported as its obligations are alone.** Let the obligations of a batch have no
overrides, let what the host computes for them be reproducible, and let neither the host nor anybody
else send a command while they are checked. Then each obligation gets the report that it gets when
it is checked alone, wherever the interrupter is like it is now, and the obligations are left as
they are,
* whatever the order in which they are taken up, and if they are checked one by one;
* and the reports of all of them, in their order, make up the summary, whether they are checked side
  by side or not.

A summary counts each of its reports in one of five counters. A selection of obligations by number
either evaluates nothing and names the first number that no obligation has, or it gives those of the
reports that have one of the numbers, in the order of the obligations.

**Proof sketch.** Each check can be made before or after others (`checksAlike`). For one step of a
schedule this is `exists_checkAt`, and for a whole one induction on its positions
(`exists_foldlM_checkAt`). -/
theorem batch_reports_as_alone (hoverride : ∀ o ∈ os, o.NotOverridden)
    (hpure : ∀ o ∈ os, o.Reproducible) (hsends : ∀ o ∈ os, o.SendsNothing c.config.engine)
    (hwaits : ∀ o ∈ os, c.NeverWaits s o) (hu : u.interrupter.Alike s.interrupter) :
    (∀ schedule, (∀ i < os.length, i ∈ schedule) →
      ((c.checkScheduled schedule os).run u).1 = (os.map (c.alone s), os)) ∧
    ((c.checkInOrder os).run u).1 = (os.map (c.alone s), os) ∧
    (∀ parallel, (((c.withParallel parallel).checkAll os).run u).1 =
      (.ofReports (os.map (c.alone s)), os)) ∧
    (∀ rs, (Summary.ofReports rs).Tallies rs) ∧
    ∀ numbers,
      (∃ before n after, numbers = before ++ n :: after ∧
        (∀ m ∈ before, ∃ o ∈ os, o.number = m) ∧ (∀ o ∈ os, o.number ≠ n) ∧
        c.checkSelected os numbers = pure (.error (.unknownObligation n os.length), os)) ∨
      ((∀ n ∈ numbers, ∃ o ∈ os, o.number = n) ∧
        ((c.checkSelected os numbers).run u).1 =
          (.ok (.ofReports ((os.map (c.alone s)).filter fun r => numbers.contains r.number)),
            os)) := by
  have h : ∀ o ∈ os, c.ChecksAlike s o := fun o ho =>
    c.checksAlike (hoverride o ho) (hpure o ho) (hsends o ho) (hwaits o ho)
  refine ⟨fun schedule hall => ?_, ?_, fun parallel => ?_, Summary.tallies_ofReports, ?_⟩
  · obtain ⟨t, hrun, -⟩ := exists_checkScheduled h hu hall
    rw [hrun]
  · obtain ⟨t, hrun, -⟩ := exists_checkInOrder h hu
    rw [hrun]
  · exact (c.withParallel parallel).fst_run_checkAll h hu
  · intro numbers
    cases hfirst : unknownNumber? os numbers with
    | some n =>
      obtain ⟨hn, before, after, rfl, hbefore⟩ := List.find?_eq_some_iff_append.mp hfirst
      have hknown : ∀ m ∈ before, ∃ o ∈ os, o.number = m := by simpa using hbefore
      have hunknown : ∀ o ∈ os, o.number ≠ n := by simpa using hn
      exact .inl ⟨before, n, after, rfl, hknown, hunknown,
        c.checkSelected_of_unknown hknown hunknown⟩
    | none =>
      have hknown : ∀ n ∈ numbers, ∃ o ∈ os, o.number = n := by
        simpa [unknownNumber?, List.find?_eq_none] using hfirst
      exact .inr ⟨hknown, c.fst_run_checkSelected h hu hknown⟩

/-- The obligation `forall x in set {1} & v`. -/
def ofAnswer (number : Nat) (v : Value) : Obligation Unit where
  number := number
  kind := "answer"
  claim :=
    { quantifier := .universal
      bindings := [.overIntegers ["x"] [1]]
      body := .host fun _ => pure v }

/-- A batch of four obligations: one that fails, one whose predicate is not a truth value, one that
passes, and one that is not evaluated. -/
def fourObligations : List (Obligation Unit) :=
  [ofAnswer 1 (.bool false), ofAnswer 4 .nil, ofAnswer 2 (.bool true),
    { ofAnswer 7 .nil with isCheckable := false }]

/-- Whether they are taken up in order or not, and the second one twice, each gets its own report;
and `1` and `2` can be selected, `9` cannot. -/
theorem batch_reports_as_alone_fourObligations :
    let c : Checker := {}
    let s := Session.running []
    let reports := fourObligations.map (c.alone s)
    (∀ o ∈ fourObligations, o.NotOverridden) ∧ (∀ o ∈ fourObligations, o.Reproducible) ∧
      (∀ o ∈ fourObligations, o.SendsNothing c.config.engine) ∧
      (∀ o ∈ fourObligations, c.NeverWaits s o) ∧
      reports.map Report.outcome =
        [.failed [("x", "1")], .error "predicate returned a nil, expected a bool", .passed,
          .unchecked] ∧
      ((c.checkScheduled [3, 1, 9, 0, 1, 2] fourObligations).run s).1 =
        (reports, fourObligations) ∧
      (((c.withParallel true).checkAll fourObligations).run s).1 =
        (.ofReports reports, fourObligations) ∧
      (Summary.ofReports reports).Tallies reports ∧
      ((c.checkSelected fourObligations [2, 1, 2]).run s).1 =
        (.ok (.ofReports (reports.filter fun r => [2, 1, 2].contains r.number)),
          fourObligations) ∧
      c.checkSelected fourObligations [2, 9, 8] =
        pure (.error (.unknownObligation 9 4), fourObligations) := by
  intro c s reports
  have hoverride : ∀ o ∈ fourObligations, o.NotOverridden := by
    simp [fourObligations, ofAnswer, Obligation.NotOverridden, Obligation.reachableBindings,
      Quantification.reachableBindings, Predicate.reachableBindings, Binding.overIntegers]
  have hhost : ∀ (P : Eval Unit Value → Prop), (∀ v, P (pure v)) → ∀ o ∈ fourObligations,
      o.claim.toPredicate.HostSatisfies P := by
    intro P hP
    simp [fourObligations, ofAnswer, Quantification.toPredicate, Predicate.HostSatisfies,
      Domain.HostSatisfies, Binding.overIntegers, hP]
  have hpure : ∀ o ∈ fourObligations, o.Reproducible := hhost _ Eval.reproducible_pure
  have hsends : ∀ o ∈ fourObligations, o.SendsNothing c.config.engine :=
    hhost _ (Eval.keptByEngine_sendsNothing c.config.engine).pure
  have hwaits : ∀ o ∈ fourObligations, c.NeverWaits s o := by
    intro o _ hpaused
    cases hpaused
  obtain ⟨hscheduled, -, hall, htallies, hselected⟩ :=
    c.batch_reports_as_alone hoverride hpure hsends hwaits (u := s) ⟨rfl, rfl⟩
  refine ⟨hoverride, hpure, hsends, hwaits, rfl, hscheduled _ (by decide), hall true,
    htallies reports, ?_, rfl⟩
  rcases hselected [2, 1, 2] with ⟨before, n, after, hsplit, -, hn, -⟩ | ⟨-, hrun⟩
  · have hmem : n ∈ [2, 1, 2] := by simp [hsplit]
    simp [fourObligations, ofAnswer] at hn hmem
    omega
  · exact hrun

end Checker

end BoundedLogic
