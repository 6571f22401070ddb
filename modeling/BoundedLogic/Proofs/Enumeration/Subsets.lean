import BoundedLogic.Proofs.Evaluation.Closure
import BoundedLogic.Proofs.ValueSet.Extensional

set_option relaxedAutoImplicit false
set_option autoImplicit false

/-!
# The subsets of a set

Subset number `k` of a set has the elements at the set bits of `k`. Numbers below `2 ^ n` with
different bits pick different elements, and every selection of elements is picked by one of them. As
sets are equal by the keys of their elements, a set of `n` elements has `2 ^ n` unequal subsets in
this way, and every subset is equal to one of them, in whatever order it lists its elements. They
need not be compared with each other when they are put into a set.

## Main definitions

* `BoundedLogic.ValueSet.EnumeratesSubsets` — the lists are the subsets of a set, in bit order.

## Main results

* `BoundedLogic.pickBits_eq` — the items that a number picks are those at its set bits.
* `BoundedLogic.eq_of_mem_pickBits_iff`, `BoundedLogic.exists_pickBits_eq_filter` — different
  numbers pick different items, and every selection is picked.
* `BoundedLogic.ValueSet.subsets_enumerates` — what the enumeration of the subsets comes to while
  the interrupter runs.
-/

namespace BoundedLogic

/-! ### Picking by bits -/

section

universe u v

variable {α : Type u} {β : Type v} {xs : List α} {j k : Nat}

/-- The items that a number picks are those at the positions of its set bits.

**Proof sketch.** Induction on the list, for the number without its first `i` bits and positions
counted from `i`. -/
lemma pickBits_eq (xs : List α) (k : Nat) :
    pickBits xs k = (xs.zipIdx.filter fun p => k.testBit p.2).map Prod.fst := by
  have hfrom : ∀ i, pickBits xs (k / 2 ^ i) =
      ((xs.zipIdx i).filter fun p => k.testBit p.2).map Prod.fst := by
    induction xs with
    | nil => intro i; rfl
    | cons x xs ih =>
      intro i
      have hnext : k / 2 ^ i / 2 = k / 2 ^ (i + 1) := by rw [Nat.div_div_eq_div_mul, Nat.pow_succ]
      have hbit : k.testBit i = decide (k / 2 ^ i % 2 = 1) := Nat.testBit_eq_decide_div_mod_eq
      rw [pickBits, hnext, ih (i + 1), List.zipIdx_cons, List.filter_cons, hbit]
      by_cases h : k / 2 ^ i % 2 = 1
      · simp [h]
      · simp [h]
  simpa using hfrom 0

/-- Picking images is picking items. -/
lemma pickBits_map (f : α → β) (xs : List α) (k : Nat) :
    pickBits (xs.map f) k = (pickBits xs k).map f := by
  induction xs generalizing k with
  | nil => rfl
  | cons x xs ih =>
    rw [List.map_cons, pickBits, pickBits, ih]
    split <;> rfl

/-- What is picked stands in the list, in the same order. -/
lemma pickBits_sublist (xs : List α) (k : Nat) : (pickBits xs k).Sublist xs := by
  induction xs generalizing k with
  | nil => exact List.Sublist.slnil
  | cons x xs ih =>
    rw [pickBits]
    split
    case isTrue => exact (ih _).cons_cons x
    case isFalse => exact (ih _).cons x

/-- Zero picks nothing. -/
lemma pickBits_zero (xs : List α) : pickBits xs 0 = [] := by
  induction xs with
  | nil => rfl
  | cons x xs ih => simp [pickBits, ih]

/-- **Every selection is picked** by a number with no more bits than there are items.

**Proof sketch.** Induction on the list: the number for the rest is doubled, and one is added to it
if the first item is selected. -/
lemma exists_pickBits_eq_filter (P : α → Bool) (xs : List α) :
    ∃ k < 2 ^ xs.length, pickBits xs k = xs.filter P := by
  induction xs with
  | nil => exact ⟨0, by simp, rfl⟩
  | cons x xs ih =>
    obtain ⟨k, hk, hpick⟩ := ih
    have hpow : 2 ^ (x :: xs).length = 2 * 2 ^ xs.length := by
      rw [List.length_cons, Nat.pow_succ, Nat.mul_comm]
    rw [hpow]
    cases hx : P x with
    | true =>
      refine ⟨2 * k + 1, by omega, ?_⟩
      have hodd : (2 * k + 1) % 2 = 1 := by omega
      have hhalf : (2 * k + 1) / 2 = k := by omega
      rw [pickBits, if_pos hodd, hhalf, hpick, List.filter_cons_of_pos hx]
    | false =>
      refine ⟨2 * k, by omega, ?_⟩
      have heven : ¬ 2 * k % 2 = 1 := by omega
      have hhalf : 2 * k / 2 = k := by omega
      rw [pickBits, if_neg heven, hhalf, hpick, List.filter_cons_of_neg (by simp [hx])]

/-- The largest of these numbers picks all items. -/
lemma pickBits_two_pow_sub_one (xs : List α) : pickBits xs (2 ^ xs.length - 1) = xs := by
  induction xs with
  | nil => rfl
  | cons x xs ih =>
    have hpos : 0 < 2 ^ xs.length := Nat.two_pow_pos _
    have hodd : (2 ^ xs.length * 2 - 1) % 2 = 1 := by omega
    have hhalf : (2 ^ xs.length * 2 - 1) / 2 = 2 ^ xs.length - 1 := by omega
    rw [List.length_cons, Nat.pow_succ, pickBits, if_pos hodd, hhalf, ih]

/-- Is the first item of a list picked, if it does not come up again? -/
lemma mem_pickBits_cons_self_iff {x : α} (hx : x ∉ xs) :
    x ∈ pickBits (x :: xs) k ↔ k % 2 = 1 := by
  have hrest : x ∉ pickBits xs (k / 2) := fun h => hx ((pickBits_sublist xs _).subset h)
  rw [pickBits]
  split
  case isTrue h => simp [h]
  case isFalse h => simp [h, hrest]

/-- Which of the other items are picked? -/
lemma mem_pickBits_cons_iff_of_ne {x y : α} (hyx : y ≠ x) :
    y ∈ pickBits (x :: xs) k ↔ y ∈ pickBits xs (k / 2) := by
  rw [pickBits]
  split
  case isTrue => simp [hyx]
  case isFalse => rfl

/-- **Different numbers pick different items** of a list without repetitions.

**Proof sketch.** Induction on the list. Whether the first item is picked tells the last bit; which
of the others are picked tells the other bits, and the first item is not among them. -/
lemma eq_of_mem_pickBits_iff (hxs : xs.Nodup) (hj : j < 2 ^ xs.length) (hk : k < 2 ^ xs.length)
    (h : ∀ x, x ∈ pickBits xs j ↔ x ∈ pickBits xs k) : j = k := by
  induction xs generalizing j k with
  | nil =>
    rw [List.length_nil, Nat.pow_zero] at hj hk
    omega
  | cons x xs ih =>
    obtain ⟨hx, hxs⟩ := List.nodup_cons.mp hxs
    rw [List.length_cons, Nat.pow_succ] at hj hk
    have hlast : j % 2 = 1 ↔ k % 2 = 1 := by
      rw [← mem_pickBits_cons_self_iff hx, h x, mem_pickBits_cons_self_iff hx]
    have hother : j / 2 = k / 2 := by
      refine ih hxs (by omega) (by omega) fun y => ?_
      by_cases hyx : y = x
      · subst hyx
        exact iff_of_false (fun hy => hx ((pickBits_sublist xs _).subset hy))
          (fun hy => hx ((pickBits_sublist xs _).subset hy))
      · rw [← mem_pickBits_cons_iff_of_ne hyx, h y, mem_pickBits_cons_iff_of_ne hyx]
    omega

end

/-! ### The run of an enumeration -/

section

variable {σ γ : Type} {s : Session σ}

/-- While the interrupter runs, an enumeration that asks goes on and leaves the session alone. -/
lemma run_shouldTerminate_of_running (hs : s.interrupter.level = .running) (reason : String) :
    (Eval.shouldTerminate reason : StateM (Session σ) Bool).run s = (false, s) := by
  show (((s.interrupter.shouldTerminate reason).1,
    { s with interrupter := (s.interrupter.shouldTerminate reason).2 }) : Bool × Session σ) = _
  rw [Interrupter.shouldTerminate, hs]

/-- While the interrupter runs, every question is answered negatively and leaves the session
alone. -/
lemma answerTo_of_running (hs : s.interrupter.level = .running) (reason : String) (k : Nat) :
    stateAfter (Eval.shouldTerminate reason) s k = s ∧
      answerTo (Eval.shouldTerminate reason) s k = false := by
  have hstate : stateAfter (Eval.shouldTerminate reason) s k = s := by
    induction k with
    | zero => rfl
    | succ k ih => rw [stateAfter, ih, run_shouldTerminate_of_running hs]
  exact ⟨hstate, by rw [answerTo, hstate, run_shouldTerminate_of_running hs]⟩

/-- **The subsets of a list**, while the interrupter runs: too many items are refused, and otherwise
every number picks a subset, in order. -/
lemma run_subsets_of_running (hs : s.interrupter.level = .running) (reason : String) (xs : List γ)
    (limit : Nat) :
    (subsets (Eval.shouldTerminate reason) xs limit).run.run s =
      (if limit < xs.length ∨ wordBits ≤ xs.length then .error (.capacityExceeded xs.length limit)
        else .ok ((List.range (2 ^ xs.length)).map (pickBits xs)), s) := by
  split
  case isTrue hlimit => exact run_subsets_of_refused hlimit ..
  case isFalse hlimit =>
    rw [run_subsets_of_answers hlimit fun k _ => (answerTo_of_running hs reason k).2,
      (answerTo_of_running hs reason _).1]

end

/-! ### Subsets as sets -/

namespace ValueSet

variable {vs : ValueSet} {j k : Nat}

/-- The keys of a picked set are picked from the keys. -/
lemma keys_ofDistinct_pickBits (vs : ValueSet) (k : Nat) :
    (ofDistinct (pickBits vs.elements k)).keys = pickBits vs.keys k :=
  (pickBits_map _ _ _).symm

/-- A picked set is valid. -/
lemma IsValid.ofDistinct_pickBits (h : vs.IsValid) (k : Nat) :
    (ofDistinct (pickBits vs.elements k)).IsValid :=
  isValid_ofDistinct (h.distinct.sublist (pickBits_sublist _ _))

/-- Sets that are picked by different numbers are unequal. -/
lemma IsValid.pickBits_beq_eq_false (h : vs.IsValid) (hj : j < 2 ^ vs.size) (hk : k < 2 ^ vs.size)
    (hne : j ≠ k) :
    (ofDistinct (pickBits vs.elements j) == ofDistinct (pickBits vs.elements k)) = false := by
  rw [← length_keys] at hj hk
  refine Bool.eq_false_of_not_eq_true fun heq => hne ?_
  rw [(h.ofDistinct_pickBits j).beq_iff_perm (h.ofDistinct_pickBits k), keys_ofDistinct_pickBits,
    keys_ofDistinct_pickBits] at heq
  exact eq_of_mem_pickBits_iff h.nodup_keys hj hk fun _ => heq.mem_iff

/-- A set is a subset exactly if it is equal to one that a number picks.

**Proof sketch.** Among the keys of the larger set a number picks those of the smaller one. They are
the same, each once, if all keys of the smaller set are among them. -/
lemma IsValid.isSubset_iff_exists_pickBits {t : ValueSet} (ht : t.IsValid) (h : vs.IsValid) :
    t.isSubset vs = true ↔
      ∃ k < 2 ^ vs.size, (t == ofDistinct (pickBits vs.elements k)) = true := by
  simp only [ht.isSubset_iff_keys h, ht.beq_iff_perm (h.ofDistinct_pickBits _),
    keys_ofDistinct_pickBits]
  constructor
  · intro hsubset
    obtain ⟨k, hk, hpick⟩ := exists_pickBits_eq_filter (fun key => decide (key ∈ t.keys)) vs.keys
    refine ⟨k, by rwa [← length_keys], ?_⟩
    rw [hpick, List.perm_ext_iff_of_nodup ht.nodup_keys (h.nodup_keys.filter _)]
    intro key
    rw [List.mem_filter, decide_eq_true_iff]
    exact ⟨fun hkey => ⟨hsubset hkey, hkey⟩, And.right⟩
  · rintro ⟨k, -, hperm⟩
    exact fun key hkey => (pickBits_sublist _ _).subset (hperm.subset hkey)

/-- The lists are the subsets of a set, in the order of the numbers whose bits tell which elements
are in. -/
structure EnumeratesSubsets (vs : ValueSet) (parts : List (List Value)) : Prop where
  /-- There are as many as numbers with a bit for every element. -/
  length_eq : parts.length = 2 ^ vs.size
  /-- Subset number `k` has the elements at the set bits of `k`, in the order of the set. -/
  getElem?_eq : ∀ k < 2 ^ vs.size,
    parts[k]? = some ((vs.elements.zipIdx.filter fun p => k.testBit p.2).map Prod.fst)
  /-- The first subset is empty. -/
  head?_eq : parts.head? = some []
  /-- The last one has all elements. -/
  getLast?_eq : parts.getLast? = some vs.elements
  /-- No subset has equal elements. -/
  isValid : ∀ part ∈ parts, (ofDistinct part).IsValid
  /-- No two of them are equal. -/
  pairwise : parts.Pairwise fun a b => (ofDistinct a == ofDistinct b) = false
  /-- Equal to one of them are the subsets, and no other sets. -/
  isSubset_iff : ∀ t : ValueSet, t.IsValid →
    (t.isSubset vs = true ↔ ∃ part ∈ parts, (t == ofDistinct part) = true)

/-- The lists that the numbers pick one after another are the subsets. -/
lemma IsValid.enumeratesSubsets (h : vs.IsValid) :
    vs.EnumeratesSubsets ((List.range (2 ^ vs.size)).map (pickBits vs.elements)) where
  length_eq := by rw [List.length_map, List.length_range]
  getElem?_eq := by
    intro k hk
    rw [List.getElem?_map, List.getElem?_range hk, Option.map_some, pickBits_eq]
  head?_eq := by
    have hpos : 0 < 2 ^ vs.size := Nat.two_pow_pos _
    rw [List.head?_map, List.head?_range, if_neg (by omega), Option.map_some, pickBits_zero]
  getLast?_eq := by
    have hpos : 0 < 2 ^ vs.size := Nat.two_pow_pos _
    rw [List.getLast?_map, List.getLast?_range, if_neg (by omega), Option.map_some]
    exact congrArg some (pickBits_two_pow_sub_one _)
  isValid := by
    intro part hpart
    obtain ⟨k, -, rfl⟩ := List.mem_map.mp hpart
    exact h.ofDistinct_pickBits k
  pairwise := by
    rw [List.pairwise_map]
    refine List.Pairwise.imp_of_mem (fun {j k} hj hk hne => ?_) List.nodup_range
    exact h.pickBits_beq_eq_false (List.mem_range.mp hj) (List.mem_range.mp hk) hne
  isSubset_iff := by
    intro t ht
    simp only [ht.isSubset_iff_exists_pickBits h, List.mem_map, List.mem_range,
      exists_exists_and_eq_and]

/-- Sets that are pairwise unequal make a set without being compared. -/
lemma EnumeratesSubsets.isValid_ofDistinct_map {parts : List (List Value)}
    (h : vs.EnumeratesSubsets parts) : (ofDistinct (parts.map .set)).IsValid := by
  refine isValid_ofDistinct ?_
  rw [Value.Distinct, List.pairwise_map]
  refine h.pairwise.imp_of_mem fun {a b} ha hb hab => ?_
  refine Bool.eq_false_of_not_eq_true fun heq => ?_
  have hperm := Value.set_beq_set_iff.mp heq
  rw [((h.isValid a ha).beq_iff_perm (h.isValid b hb)).mpr hperm] at hab
  cases hab

/-- **The subsets of a valid set** are enumerated, whatever its order, while the interrupter runs:

* with more elements than the limit, or sixty-four and more, the enumeration is refused, and in no
  other case;
* otherwise it gives all subsets, as many as numbers with a bit for every element, each once and
  with the elements at the set bits of its number; and these make a set of pairwise unequal sets,
  though they are put into it without being compared.

**Proof sketch.** As the interrupter runs, no step cancels the enumeration, and the lists it builds
are those that the numbers pick (`run_subsets_of_running`). -/
theorem subsets_enumerates {σ : Type} {s : Session σ} (h : vs.IsValid)
    (hs : s.interrupter.level = .running) (reason : String) (limit : Nat) :
    ((subsets (Eval.shouldTerminate reason) vs.elements limit).run.run s =
        (.error (.capacityExceeded vs.size limit), s) ↔ limit < vs.size ∨ 64 ≤ vs.size) ∧
      (¬ (limit < vs.size ∨ 64 ≤ vs.size) → ∃ parts,
        (subsets (Eval.shouldTerminate reason) vs.elements limit).run.run s = (.ok parts, s) ∧
        vs.EnumeratesSubsets parts ∧
        (powerSet (Eval.shouldTerminate reason) vs limit).run.run s =
          (.ok (ofDistinct (parts.map .set)), s) ∧
        (ofDistinct (parts.map .set)).IsValid) := by
  have hrun := run_subsets_of_running hs reason vs.elements limit
  constructor
  · rw [hrun]
    by_cases hlimit : limit < vs.elements.length ∨ wordBits ≤ vs.elements.length
    · rw [if_pos hlimit]
      exact iff_of_true rfl hlimit
    · rw [if_neg hlimit]
      exact iff_of_false (fun h => by cases h) hlimit
  · intro hlimit
    have hlimit' : ¬ (limit < vs.elements.length ∨ wordBits ≤ vs.elements.length) := hlimit
    rw [if_neg hlimit'] at hrun
    have hparts := h.enumeratesSubsets
    refine ⟨_, hrun, hparts, ?_, hparts.isValid_ofDistinct_map⟩
    rw [powerSet, ExceptT.run_bind, StateT.run_bind, hrun]
    rfl

/-- The subsets of `{2, 1.0}`, whose elements are not listed by size, under a limit of two; under a
limit of one they are refused. -/
theorem subsets_enumerates_twoOne :
    let vs := ofDistinct [.int 2, .real ⟨0x3ff0000000000000⟩]
    let run := fun limit => (subsets (Eval.shouldTerminate "power set") vs.elements limit).run.run
      (Session.running [])
    let parts := [[], [.int 2], [.real ⟨0x3ff0000000000000⟩], [.int 2, .real ⟨0x3ff0000000000000⟩]]
    vs.IsValid ∧ (Session.running []).interrupter.level = .running ∧
      run 1 = (.error (.capacityExceeded 2 1), Session.running []) ∧
      run 2 = (.ok parts, Session.running []) ∧ vs.EnumeratesSubsets parts := by
  intro vs run parts
  have hvs : vs.IsValid := isValid_ofDistinct (by
    rw [Value.Distinct]
    decide +kernel)
  have hs : (Session.running []).interrupter.level = .running := rfl
  have hrun : run 2 = (.ok parts, Session.running []) := rfl
  have htight := (subsets_enumerates hvs hs "power set" 1).1.mpr (by decide)
  obtain ⟨parts', hrun', hparts, -, -⟩ :=
    (subsets_enumerates hvs hs "power set" 2).2 (by decide)
  cases hrun.symm.trans hrun'
  exact ⟨hvs, hs, htight, hrun, hparts⟩

end ValueSet

end BoundedLogic
