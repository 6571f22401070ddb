import BoundedLogic.Proofs.Value.TotalOrder
import BoundedLogic.Scope.Context
import BoundedLogic.Scope.Match

set_option relaxedAutoImplicit false
set_option autoImplicit false

/-!
# Matches whose repeated names agree

A match collapses to a frame by going through its bindings and comparing each one with the value its
name has already. As equality of values is an equivalence, this compares a name only with its first
value, and still finds out whether any two of its values are unequal.

## Main definitions

* `BoundedLogic.Named.Agree` — equal names have equal values.
* `BoundedLogic.Match.Agrees` — the same for the bindings of a match.
* `BoundedLogic.Match.Apart` — matches that bind no common name.

## Main results

* `BoundedLogic.Match.isConsistent_iff` — a match collapses exactly if its bindings agree.
-/

namespace BoundedLogic

/-! ### Looking names up -/

lemma Named.find?_cons (n m : String) (v : Value) (ps : List Named) :
    Named.find? ((n, v) :: ps) m = if n = m then some v else Named.find? ps m := by
  by_cases h : n = m <;> simp [Named.find?, h]

/-- A name is looked for in the first pairs first. -/
lemma Named.find?_append (ps qs : List Named) (n : String) :
    Named.find? (ps ++ qs) n = (Named.find? ps n).or (Named.find? qs n) := by
  rw [Named.find?, List.find?_append, Option.map_or]
  rfl

/-- A name and the value that is found for it are one of the pairs. -/
lemma Named.mem_of_find? {ps : List Named} {n : String} {v : Value} (h : Named.find? ps n = some v) :
    (n, v) ∈ ps := by
  obtain ⟨p, hp, rfl⟩ := Option.map_eq_some_iff.mp h
  obtain rfl : p.1 = n := by simpa using List.find?_some hp
  exact List.mem_of_find?_eq_some hp

/-- Some value is found for the name of a pair. -/
lemma Named.exists_find?_of_mem {ps : List Named} {p : Named} (h : p ∈ ps) :
    ∃ v, Named.find? ps p.1 = some v := by
  rw [← Option.isSome_iff_exists, Named.find?, Option.isSome_map, List.find?_isSome]
  exact ⟨p, h, beq_self_eq_true p.1⟩

/-- A name is looked up in the innermost scope first. -/
lemma Context.lookup?_extend (c : Context) (title : String) (f : Frame) (n : String) :
    (c.extend title f).lookup? n = (f.get? n).or (c.lookup? n) := by
  simp only [lookup?, extend, List.findSome?_cons]
  cases f.get? n <;> rfl

namespace Frame

@[simp] lemma get?_empty (n : String) : empty.get? n = none := rfl

/-- A name that is bound has its new value, and every other name the one it had. -/
lemma get?_bind (f : Frame) (n m : String) (v : Value) :
    (f.bind n v).get? m = if n = m then some v else f.get? m := by
  rcases f with ⟨es⟩
  show Named.find? (bindEntry n v es) m = if n = m then some v else Named.find? es m
  induction es with
  | nil => rw [bindEntry, Named.find?_cons]
  | cons e es ih =>
    obtain ⟨k, w⟩ := e
    rw [bindEntry]
    by_cases hk : k = n
    · subst hk
      rw [if_pos rfl, Named.find?_cons, Named.find?_cons]
      by_cases hm : k = m <;> simp [hm]
    · rw [if_neg hk, Named.find?_cons, ih, Named.find?_cons]
      by_cases hm : k = m
      · have hn : ¬ n = m := fun h => hk (hm.trans h.symm)
        simp [hm, hn]
      · simp [hm]

end Frame

/-! ### Agreement -/

/-- Pairs of the same name have equal values. -/
def Named.Agree (ps : List Named) : Prop :=
  ∀ p ∈ ps, ∀ q ∈ ps, p.1 = q.1 → (p.2 == q.2) = true

/-- A pair agrees with others that agree if each of them that has its name has its value. -/
lemma Named.agree_cons_iff {p : Named} {ps : List Named} :
    Named.Agree (p :: ps) ↔ (∀ q ∈ ps, p.1 = q.1 → (p.2 == q.2) = true) ∧ Named.Agree ps := by
  constructor
  · intro h
    refine ⟨fun q hq => h p List.mem_cons_self q (List.mem_cons_of_mem p hq), fun q hq r hr => ?_⟩
    exact h q (List.mem_cons_of_mem p hq) r (List.mem_cons_of_mem p hr)
  · rintro ⟨hp, hps⟩ q hq r hr hqr
    rcases List.mem_cons.mp hq with rfl | hq'
    · rcases List.mem_cons.mp hr with rfl | hr'
      · exact BEq.rfl
      · exact hp r hr' hqr
    · rcases List.mem_cons.mp hr with rfl | hr'
      · exact BEq.symm (hp q hq' hqr.symm)
      · exact hps q hq' r hr' hqr

/-- Pairs of two lists agree if those of each list do and those of one with those of the other. -/
lemma Named.agree_append_iff {ps qs : List Named} :
    Named.Agree (ps ++ qs) ↔ Named.Agree ps ∧ Named.Agree qs ∧
      ∀ p ∈ ps, ∀ q ∈ qs, p.1 = q.1 → (p.2 == q.2) = true := by
  constructor
  · intro h
    exact ⟨fun p hp q hq => h p (List.mem_append_left _ hp) q (List.mem_append_left _ hq),
      fun p hp q hq => h p (List.mem_append_right _ hp) q (List.mem_append_right _ hq),
      fun p hp q hq => h p (List.mem_append_left _ hp) q (List.mem_append_right _ hq)⟩
  · rintro ⟨hps, hqs, hboth⟩ p hp q hq hpq
    rcases List.mem_append.mp hp with hp | hp <;> rcases List.mem_append.mp hq with hq | hq
    · exact hps p hp q hq hpq
    · exact hboth p hp q hq hpq
    · exact BEq.symm (hboth q hq p hp hpq.symm)
    · exact hqs p hp q hq hpq

namespace Match

/-- The bindings of one name have equal values. -/
def Agrees (m : Match) : Prop :=
  Named.Agree m.pairs

@[simp] lemma pairs_empty : empty.pairs = [] := rfl

@[simp] lemma pairs_single (n : String) (v : Value) : (single n v).pairs = [(n, v)] := rfl

@[simp] lemma pairs_append (m n : Match) : (m ++ n).pairs = m.pairs ++ n.pairs := rfl

lemma append_assoc (m n k : Match) : m ++ n ++ k = m ++ (n ++ k) := by
  show Match.mk (m.pairs ++ n.pairs ++ k.pairs) = Match.mk (m.pairs ++ (n.pairs ++ k.pairs))
  rw [List.append_assoc]

lemma empty_append (m : Match) : empty ++ m = m := rfl

lemma append_empty (m : Match) : m ++ empty = m := by
  show Match.mk (m.pairs ++ []) = m
  rw [List.append_nil]

lemma agrees_empty : empty.Agrees := by
  intro p hp
  simp at hp

lemma agrees_single (n : String) (v : Value) : (single n v).Agrees := by
  intro p hp q hq _
  obtain rfl := List.mem_singleton.mp hp
  obtain rfl := List.mem_singleton.mp hq
  exact BEq.rfl

/-- What agrees in the whole agrees in the parts. -/
lemma Agrees.of_append {m n : Match} (h : (m ++ n).Agrees) : m.Agrees ∧ n.Agrees := by
  obtain ⟨hm, hn, -⟩ := Named.agree_append_iff.mp h
  exact ⟨hm, hn⟩

/-- The matches bind no common name. -/
def Apart (m n : Match) : Prop :=
  ∀ p ∈ m.pairs, ∀ q ∈ n.pairs, p.1 ≠ q.1

/-- What agrees in parts that bind no common name agrees in the whole. -/
lemma Agrees.append {m n : Match} (hm : m.Agrees) (hn : n.Agrees) (h : m.Apart n) :
    (m ++ n).Agrees :=
  Named.agree_append_iff.mpr ⟨hm, hn, fun p hp q hq hpq => absurd hpq (h p hp q hq)⟩

/-- Where the bindings agree, any value of a name is equal to its first one. -/
lemma Agrees.exists_get? {m : Match} (h : m.Agrees) {p : Named} (hp : p ∈ m.pairs) :
    ∃ v, m.get? p.1 = some v ∧ (v == p.2) = true := by
  obtain ⟨v, hv⟩ := Named.exists_find?_of_mem hp
  exact ⟨v, hv, h _ (Named.mem_of_find? hv) p hp rfl⟩

/-! ### Collapsing -/

/-- Pairs are added to a frame exactly if they agree with it and with each other.

**Proof sketch.** Induction on the pairs. If the name of the first one is in the frame already, its
value there is equal, and stands for it in all later comparisons. Otherwise it is bound, and the
frame has one more name to compare with. -/
lemma collapse_isSome_iff {ps : List Named} {f : Frame} :
    (collapse ps f).isSome ↔
      (∀ p ∈ ps, ∀ w, f.get? p.1 = some w → (w == p.2) = true) ∧ Named.Agree ps := by
  induction ps generalizing f with
  | nil => simp [collapse, Named.Agree]
  | cons p ps ih =>
    obtain ⟨n, v⟩ := p
    rw [collapse, Named.agree_cons_iff, List.forall_mem_cons]
    cases hn : f.get? n with
    | some w =>
      by_cases hwv : (w == v) = true
      · simp only [hwv, if_true, ih, Option.some.injEq, forall_eq', true_and]
        constructor
        · rintro ⟨hf, hps⟩
          refine ⟨hf, fun q hq hnq => ?_, hps⟩
          exact BEq.trans (BEq.symm hwv) (hf q hq w (hnq ▸ hn))
        · rintro ⟨hf, -, hps⟩
          exact ⟨hf, hps⟩
      · simp [hwv]
    | none =>
      simp only [ih, Frame.get?_bind, reduceCtorEq, false_implies, implies_true, true_and]
      constructor
      · rintro ⟨hf, hps⟩
        refine ⟨fun q hq w hw => ?_, fun q hq hnq => ?_, hps⟩
        · have hne : n ≠ q.1 := by
            rintro rfl
            rw [hn] at hw
            cases hw
          exact hf q hq w (by rw [if_neg hne]; exact hw)
        · exact hf q hq v (if_pos hnq)
      · rintro ⟨hf, hv, hps⟩
        refine ⟨fun q hq w hw => ?_, hps⟩
        by_cases hnq : n = q.1
        · rw [if_pos hnq] at hw
          obtain rfl := Option.some.inj hw
          exact hv q hq hnq
        · rw [if_neg hnq] at hw
          exact hf q hq w hw

/-- **A match collapses** to a frame exactly if its bindings agree. -/
theorem isConsistent_iff {m : Match} : m.isConsistent = true ↔ m.Agrees := by
  rw [isConsistent, toFrame?, collapse_isSome_iff]
  simp [Agrees]

/-- Matches that bind no common name are consistent together exactly if each of them is. -/
lemma Apart.isConsistent_append_iff {m n : Match} (h : m.Apart n) :
    (m ++ n).isConsistent = true ↔ m.isConsistent = true ∧ n.isConsistent = true := by
  simp only [isConsistent_iff]
  exact ⟨Agrees.of_append, fun ⟨hm, hn⟩ => hm.append hn h⟩

end Match

end BoundedLogic
