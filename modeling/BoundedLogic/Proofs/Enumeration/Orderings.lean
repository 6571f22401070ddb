import BoundedLogic.Enumeration.Permutation
import Mathlib.Data.List.Lex
import Mathlib.Data.List.Perm.Basic
import Mathlib.Data.Nat.Factorial.Basic
import Mathlib.Tactic.Lemma

set_option relaxedAutoImplicit false
set_option autoImplicit false

/-!
# The orderings of a list

The positions of a list are permuted by picking one after another, from left to right, until none is
left. Items can be picked in the same way, and what is picked then stands at the positions that are
picked: the orderings of a list are its arrangements. So they are the lists with the same items,
each as often as in the list, and they come in lexicographic order if the items are in order.

## Main results

* `BoundedLogic.orderings_eq_arrangements` — an ordering picks one item after another.
* `BoundedLogic.eq_indexPermutations_iff` — how the library lists the permutations of positions, and
  that nothing more is said of it.
* `BoundedLogic.mem_orderings_iff` — the orderings of a list are its permutations.
* `BoundedLogic.length_orderings` — how many there are.
* `BoundedLogic.pairwise_lex_orderings` — the orderings of items that stand in order are in order.
* `BoundedLogic.exists_orderings_eq_cons` — the list itself comes first.
* `BoundedLogic.orderings_perm` — lists with the same items have the same orderings, each as often.
-/

namespace BoundedLogic

universe u v

variable {α : Type u} {β : Type v}

/-! ### Arrangements and positions -/

/-- Picking an image is picking an item. -/
lemma picks_map (f : α → β) (xs : List α) :
    picks (xs.map f) = (picks xs).map fun p => (f p.1, p.2.map f) := by
  induction xs with
  | nil => rfl
  | cons x xs ih =>
    rw [List.map_cons, picks, picks, ih, List.map_cons, List.map_map, List.map_map]
    rfl

/-- Arranging images is arranging items. -/
lemma arrangements_map (f : α → β) (n : Nat) (xs : List α) :
    arrangements n (xs.map f) = (arrangements n xs).map (List.map f) := by
  induction n generalizing xs with
  | zero => rfl
  | succ n ih =>
    rw [arrangements, arrangements, picks_map, List.flatMap_map, List.map_flatMap]
    refine List.flatMap_congr fun p _ => ?_
    rw [ih, List.map_map, List.map_map]
    rfl

/-- Looking up all positions of a list, from the first on. -/
lemma map_getElem?_range (xs : List α) :
    (List.range xs.length).map (fun i => xs[i]?) = xs.map some := by
  refine List.ext_getElem (by simp) fun i _ hi => ?_
  simp

/-- The items at given positions are those that are found there. -/
lemma atPositions_eq (xs : List α) (ps : List Nat) :
    atPositions xs ps = (ps.map fun i => xs[i]?).filterMap id := by
  rw [atPositions, List.filterMap_map]
  rfl

/-- The items at all positions, from the first on, are the whole list. -/
lemma atPositions_range (xs : List α) : atPositions xs (List.range xs.length) = xs := by
  rw [atPositions_eq, map_getElem?_range]
  simp

/-- An ordering of a list takes its items from the positions that a permutation of them lists. -/
lemma orderings_eq (xs : List α) :
    orderings xs = (indexPermutations xs.length).map (atPositions xs) := by
  cases xs <;> rfl

/-- **The orderings of a list** are the arrangements of all its items.

**Proof sketch.** To permute the positions and look up what stands there is to arrange what stands
at all positions, which are the items of the list. -/
theorem orderings_eq_arrangements (xs : List α) : orderings xs = arrangements xs.length xs := by
  have hlookup : (indexPermutations xs.length).map (List.map fun i => xs[i]?) =
      (arrangements xs.length xs).map (List.map some) := by
    rw [indexPermutations, ← arrangements_map, map_getElem?_range, arrangements_map]
  calc orderings xs
      = ((indexPermutations xs.length).map (List.map fun i => xs[i]?)).map
          (List.filterMap id) := by
        rw [orderings_eq, List.map_map]
        exact List.map_congr_left fun ps _ => atPositions_eq xs ps
    _ = ((arrangements xs.length xs).map (List.map some)).map (List.filterMap id) := by
        rw [hlookup]
    _ = arrangements xs.length xs := by
        simp [List.map_map, Function.comp_def]

/-! ### Which orderings there are -/

/-- The first item is picked, or it is left in front of what else is left. -/
lemma mem_picks_cons_iff {x y : α} {rest ys : List α} :
    (x, rest) ∈ picks (y :: ys) ↔
      x = y ∧ rest = ys ∨ ∃ zs, (x, zs) ∈ picks ys ∧ y :: zs = rest := by
  rw [picks, List.mem_cons, List.mem_map]
  simp

/-- An item that is picked and those that are left are the items of the list. -/
lemma perm_of_mem_picks {x : α} {rest xs : List α} (h : (x, rest) ∈ picks xs) :
    (x :: rest).Perm xs := by
  induction xs generalizing rest with
  | nil => simp [picks] at h
  | cons y ys ih =>
    rcases mem_picks_cons_iff.mp h with ⟨rfl, rfl⟩ | ⟨zs, hz, rfl⟩
    · exact .refl _
    · exact (List.Perm.swap y x zs).trans ((ih hz).cons y)

/-- Every item of a list can be picked. -/
lemma exists_mem_picks {x : α} {xs : List α} (h : x ∈ xs) : ∃ rest, (x, rest) ∈ picks xs := by
  induction xs with
  | nil => simp at h
  | cons y ys ih =>
    rcases List.mem_cons.mp h with rfl | h
    · exact ⟨ys, List.mem_cons_self⟩
    · obtain ⟨rest, hrest⟩ := ih h
      exact ⟨y :: rest, mem_picks_cons_iff.mpr (.inr ⟨rest, hrest, rfl⟩)⟩

/-- The items that are picked are those of the list, from left to right. -/
lemma map_fst_picks (xs : List α) : (picks xs).map Prod.fst = xs := by
  induction xs with
  | nil => rfl
  | cons x xs ih =>
    rw [picks, List.map_cons, List.map_map]
    exact congrArg (x :: ·) ih

/-- The items that are left stand in the list, in the same order. -/
lemma sublist_of_mem_picks {x : α} {rest xs : List α} (h : (x, rest) ∈ picks xs) :
    rest.Sublist xs := by
  induction xs generalizing rest with
  | nil => simp [picks] at h
  | cons y ys ih =>
    rcases mem_picks_cons_iff.mp h with ⟨rfl, rfl⟩ | ⟨zs, hz, rfl⟩
    · exact List.sublist_cons_self _ _
    · exact (ih hz).cons_cons y

/-- Of the items one is picked and one less is left. -/
lemma length_of_mem_picks {x : α} {rest xs : List α} {n : Nat} (hn : xs.length = n + 1)
    (h : (x, rest) ∈ picks xs) : rest.length = n := by
  have hlen := (perm_of_mem_picks h).length_eq
  rw [List.length_cons, hn] at hlen
  exact Nat.succ.inj hlen

/-- Arranging as many items as there are gives the permutations of a list.

**Proof sketch.** Induction on the number of items. The first item of an arrangement is picked, and
the others arrange what is left; as picked and left items together are those of the list, what is
left is a permutation of the rest of the arrangement. -/
lemma mem_arrangements_iff {n : Nat} {xs ys : List α} (hn : xs.length = n) :
    ys ∈ arrangements n xs ↔ ys.Perm xs := by
  induction n generalizing xs ys with
  | zero =>
    obtain rfl := List.length_eq_zero_iff.mp hn
    simp [arrangements]
  | succ n ih =>
    have hrest : ∀ {x : α} {rest : List α}, (x, rest) ∈ picks xs → rest.length = n :=
      length_of_mem_picks hn
    simp only [arrangements, List.mem_flatMap, List.mem_map, Prod.exists]
    constructor
    · rintro ⟨x, rest, hx, zs, hzs, rfl⟩
      exact (((ih (hrest hx)).mp hzs).cons x).trans (perm_of_mem_picks hx)
    · intro hperm
      cases ys with
      | nil =>
        have hlen := hperm.length_eq
        rw [List.length_nil] at hlen
        omega
      | cons y ys =>
        obtain ⟨rest, hpick⟩ := exists_mem_picks (hperm.subset List.mem_cons_self)
        have htail : ys.Perm rest := (hperm.trans (perm_of_mem_picks hpick).symm).cons_inv
        exact ⟨y, rest, hpick, ys, (ih (hrest hpick)).mpr htail, rfl⟩

/-- **The orderings of a list** are its permutations. -/
theorem mem_orderings_iff {xs ys : List α} : ys ∈ orderings xs ↔ ys.Perm xs := by
  rw [orderings_eq_arrangements]
  exact mem_arrangements_iff rfl

/-- The number of arrangements of as many items as there are: each of these can be picked first, and
what is left can be arranged in as many ways whichever it was. -/
lemma length_arrangements {n : Nat} {xs : List α} (hn : xs.length = n) :
    (arrangements n xs).length = n.factorial := by
  induction n generalizing xs with
  | zero => rfl
  | succ n ih =>
    have hcount : (picks xs).map (fun p => ((arrangements n p.2).map (p.1 :: ·)).length) =
        (picks xs).map fun _ => n.factorial :=
      List.map_congr_left fun p hp => by
        rw [List.length_map, ih (length_of_mem_picks hn hp)]
    have hpicks : (picks xs).length = n + 1 := by
      rw [← hn, ← List.length_map Prod.fst, map_fst_picks]
    rw [arrangements, List.length_flatMap, hcount, List.map_const', List.sum_replicate_nat, hpicks,
      Nat.factorial_succ]

/-- **The number of orderings** of a list is the factorial of the number of its items. -/
theorem length_orderings (xs : List α) : (orderings xs).length = xs.length.factorial := by
  rw [orderings_eq_arrangements]
  exact length_arrangements rfl

/-- Arrangements that start with different items are in the order of these, and arrangements that
start with the same item are in the order in which they go on. -/
lemma pairwise_lex_arrangements {R : α → α → Prop} (n : Nat) {xs : List α} (h : xs.Pairwise R) :
    (arrangements n xs).Pairwise (List.Lex R) := by
  induction n generalizing xs with
  | zero => exact List.pairwise_singleton _ _
  | succ n ih =>
    rw [arrangements, List.pairwise_flatMap]
    constructor
    · rintro ⟨x, rest⟩ hpick
      rw [List.pairwise_map]
      exact (ih (h.sublist (sublist_of_mem_picks hpick))).imp .cons
    · have hfst : ((picks xs).map Prod.fst).Pairwise R := by rwa [map_fst_picks]
      refine (List.pairwise_map.mp hfst).imp fun {p q} hpq as has bs hbs => ?_
      obtain ⟨as, -, rfl⟩ := List.mem_map.mp has
      obtain ⟨bs, -, rfl⟩ := List.mem_map.mp hbs
      exact .rel hpq

/-- **The orderings of items that stand in order** are in lexicographic order. -/
theorem pairwise_lex_orderings {R : α → α → Prop} {xs : List α} (h : xs.Pairwise R) :
    (orderings xs).Pairwise (List.Lex R) := by
  rw [orderings_eq_arrangements]
  exact pairwise_lex_arrangements _ h

/-- Distinct items have no ordering twice. -/
theorem nodup_orderings {xs : List α} (h : xs.Nodup) : (orderings xs).Nodup :=
  (pairwise_lex_orderings h).imp List.Lex.to_ne

/-- The permutations of the positions are those that the library lists. -/
lemma mem_indexPermutations_iff {n : Nat} {ps : List Nat} :
    ps ∈ indexPermutations n ↔ ps.Perm (List.range n) :=
  mem_arrangements_iff List.length_range

/-- The library lists them in lexicographic order. -/
lemma pairwise_indexPermutations (n : Nat) : (indexPermutations n).Pairwise (· < ·) :=
  pairwise_lex_arrangements n List.pairwise_lt_range

/-- **What is assumed of the library** is that it lists the permutations of the positions in
lexicographic order. There is one such list. -/
theorem eq_indexPermutations_iff {n : Nat} {tuples : List (List Nat)} :
    tuples = indexPermutations n ↔
      tuples.Pairwise (· < ·) ∧ ∀ ps, ps ∈ tuples ↔ ps.Perm (List.range n) := by
  constructor
  · rintro rfl
    exact ⟨pairwise_indexPermutations n, fun _ => mem_indexPermutations_iff⟩
  · rintro ⟨hlt, hmem⟩
    have hsame : tuples.Perm (indexPermutations n) :=
      (List.perm_ext_iff_of_nodup (hlt.imp ne_of_lt)
        ((pairwise_indexPermutations n).imp ne_of_lt)).mpr fun ps =>
          (hmem ps).trans mem_indexPermutations_iff.symm
    exact hsame.eq_of_pairwise (fun _ _ _ _ hab hba => absurd hba (lt_asymm hab)) hlt
      (pairwise_indexPermutations n)

/-- Where as many items are picked as there are, the first one each time comes first. -/
lemma exists_arrangements_eq_cons (xs : List α) :
    ∃ others, arrangements xs.length xs = xs :: others := by
  induction xs with
  | nil => exact ⟨[], rfl⟩
  | cons x xs ih =>
    obtain ⟨others, h⟩ := ih
    rw [List.length_cons, arrangements, picks, List.flatMap_cons, h, List.map_cons,
      List.cons_append]
    exact ⟨_, rfl⟩

/-- **The first ordering of a list** is the list itself. -/
theorem exists_orderings_eq_cons (xs : List α) : ∃ others, orderings xs = xs :: others := by
  rw [orderings_eq_arrangements]
  exact exists_arrangements_eq_cons xs

/-! ### Orderings of lists with the same items -/

/-- The orderings of the images are the images of the orderings. -/
lemma orderings_map (f : α → β) (xs : List α) :
    orderings (xs.map f) = (orderings xs).map (List.map f) := by
  rw [orderings_eq_arrangements, orderings_eq_arrangements, List.length_map, arrangements_map]

/-- What is collected for each pick is the same for lists with the same items, if it does not depend
on the order of the items that are left.

**Proof sketch.** Induction on the permutation. Two items in front that change places are picked
first and second, and the other way around; in all other picks they are both left. -/
lemma flatMap_picks_perm {F : α → List α → List β}
    (hF : ∀ x as bs, as.Perm bs → (F x as).Perm (F x bs)) {xs ys : List α} (h : xs.Perm ys) :
    ((picks xs).flatMap fun p => F p.1 p.2).Perm ((picks ys).flatMap fun p => F p.1 p.2) := by
  induction h generalizing F with
  | nil => exact .refl _
  | @cons x xs ys h ih =>
    rw [picks, picks, List.flatMap_cons, List.flatMap_cons, List.flatMap_map, List.flatMap_map]
    exact (hF x xs ys h).append (ih fun y as bs hab => hF y _ _ (hab.cons x))
  | swap x y xs =>
    have hrest : ((picks xs).flatMap fun p => F p.1 (y :: x :: p.2)).Perm
        ((picks xs).flatMap fun p => F p.1 (x :: y :: p.2)) :=
      List.Perm.flatMap_left _ fun p _ => hF p.1 _ _ (.swap x y p.2)
    simp only [picks, List.flatMap_cons, List.map_cons, List.map_map, List.flatMap_map,
      ← List.append_assoc]
    exact List.perm_append_comm.append hrest
  | trans _ _ ih ih' => exact (ih hF).trans (ih' hF)

/-- Lists with the same items have the same arrangements. -/
lemma arrangements_perm (n : Nat) {xs ys : List α} (h : xs.Perm ys) :
    (arrangements n xs).Perm (arrangements n ys) := by
  induction n generalizing xs ys with
  | zero => exact .refl _
  | succ n ih => exact flatMap_picks_perm (fun x as bs hab => (ih hab).map (x :: ·)) h

/-- **Lists with the same items** have the same orderings, each as often. -/
theorem orderings_perm {xs ys : List α} (h : xs.Perm ys) : (orderings xs).Perm (orderings ys) := by
  rw [orderings_eq_arrangements, orderings_eq_arrangements, h.length_eq]
  exact arrangements_perm _ h

end BoundedLogic
