import BoundedLogic.Proofs.Enumeration.Orderings
import BoundedLogic.Proofs.Scope.Contents
import BoundedLogic.Proofs.Value.EqualParts
import Mathlib.Logic.Equiv.Fin.Basic

set_option relaxedAutoImplicit false
set_option autoImplicit false

/-!
# Matching equal values

Equal values match a pattern in the same ways, each as often, up to equality of what is bound. The
ways may come in another order, as the elements of equal sets may be listed in different orders. For
the same reason it has to be asked that either all orders of the elements of a set are tried, or the
pattern takes no set apart.

## Main definitions

* `BoundedLogic.Pattern.isSetFree` — a pattern that takes no set apart.
* `BoundedLogic.Match.Equal` — matches that bind the same names in the same order to equal values.

## Main results

* `BoundedLogic.Pattern.spelling_matchings_perm` — the ways to match equal values spell out the
  same.
* `BoundedLogic.Pattern.contents_flatMap_matchings_congr` — lists with equal values, in some order,
  match a pattern in ways that bind the same.
* `BoundedLogic.Pattern.matchings_of_equal_values` — the ways to match equal values correspond to
  each other.
-/

namespace BoundedLogic

/-! ### Lists with the same keys -/

section Keys

variable {α β γ κ : Type}

/-- Where the keys of two lists are the same in some order, so are those of the items in some order
of the second list, one by one. -/
lemma exists_perm_of_perm_map {k : α → κ} {l : β → κ} {as : List α} {bs : List β}
    (h : (as.map k).Perm (bs.map l)) :
    ∃ cs, List.Forall₂ (fun a c => k a = l c) as cs ∧ cs.Perm bs := by
  have hkeys : List.Forall₂ (fun x b => x = l b) (bs.map l) bs :=
    List.forall₂_map_left_iff.mpr (List.forall₂_same.mpr fun _ _ => rfl)
  obtain ⟨cs, hcs, hperm⟩ := List.perm_comp_forall₂ h hkeys
  exact ⟨cs, List.forall₂_map_left_iff.mp hcs, hperm⟩

/-- What is collected for the items of two lists with the same keys is the same in some order, if it
is for two items with the same key. -/
lemma flatMap_perm_of_keys {k : α → κ} {f : α → List β} {g : β → γ}
    (hf : ∀ a b, k a = k b → ((f a).map g).Perm ((f b).map g)) {as bs : List α}
    (h : (as.map k).Perm (bs.map k)) : ((as.flatMap f).map g).Perm ((bs.flatMap f).map g) := by
  obtain ⟨cs, hcs, hperm⟩ := exists_perm_of_perm_map h
  refine .trans ?_ ((hperm.flatMap_right f).map g)
  clear hperm h
  induction hcs with
  | nil => exact .refl _
  | cons hac _ ih =>
    rw [List.flatMap_cons, List.flatMap_cons, List.map_append, List.map_append]
    exact (hf _ _ hac).append ih

end Keys

/-! ### Equal matches -/

/-- The matches bind the same names in the same order, to equal values. -/
def Match.Equal (m n : Match) : Prop :=
  List.Forall₂ (fun p q : Named => p.1 = q.1 ∧ (p.2 == q.2) = true) m.pairs n.pairs

/-- Matches are equal if they spell out the same. -/
lemma Match.equal_iff {m n : Match} : m.Equal n ↔ m.spelling = n.spelling := by
  rw [spelling, spelling, ← List.forall₂_eq_eq_eq, List.forall₂_map_left_iff,
    List.forall₂_map_right_iff, Equal]
  simp only [Prod.mk.injEq, Value.beq_iff]

namespace Pattern

open Match (spelling contents)

/-! ### Patterns without set patterns -/

mutual

/-- Is there no set pattern in the pattern? -/
def isSetFree : Pattern → Bool
  | .set _ => false
  | .tuple ps => areSetFree ps
  | .record _ ps => areSetFree ps
  | .seq ps => areSetFree ps
  | _ => true

/-- Is there no set pattern in any of the patterns? -/
def areSetFree : List Pattern → Bool
  | [] => true
  | p :: ps => p.isSetFree && areSetFree ps

end

/-! ### Matching part by part -/

variable {allOrders : Bool}

/-- What the ways of `done` spell out that are continued consistently by those of `next`. -/
lemma spelling_joinConsistent (done next : List Match) :
    (joinConsistent done next).map spelling =
      (done.map spelling).flatMap fun a => ((next.map spelling).map (a ++ ·)).filter
        fun c : List (String × List Int) => decide (Match.Unambiguous ↑c) := by
  have hconsistent : ∀ m n : Match, (m ++ n).isConsistent =
      decide (Match.Unambiguous (↑(m.spelling ++ n.spelling))) := by
    intro m n
    rw [Bool.eq_iff_iff, decide_eq_true_eq, Match.isConsistent_iff_unambiguous,
      Match.content_eq_coe_spelling, Match.spelling_append]
  simp only [joinConsistent, List.map_flatMap, List.flatMap_map, List.filter_map, List.map_map,
    Function.comp_def, hconsistent, Match.spelling_append]

/-- The ways to match equal values spell out the same, each as often. -/
def RespectsEquality (allOrders : Bool) (p : Pattern) : Prop :=
  ∀ v w : Value, v.sortKey = w.sortKey →
    ((p.matchings allOrders v).map spelling).Perm ((p.matchings allOrders w).map spelling)

/-- The ways to match lists of equal values, after ways that spell out the same.

**Proof sketch.** Induction on the patterns. The ways before the first pattern and those in which it
matches the first value spell out the same on both sides, and so do those of them that are
continued. -/
lemma spelling_matchingsFrom_perm {ps : List Pattern}
    (hps : ∀ p ∈ ps, RespectsEquality allOrders p) {done done' : List Match}
    (hdone : (done.map spelling).Perm (done'.map spelling)) {vs ws : List Value}
    (h : vs.map Value.sortKey = ws.map Value.sortKey) :
    ((matchingsFrom allOrders ps done vs).map spelling).Perm
      ((matchingsFrom allOrders ps done' ws).map spelling) := by
  induction ps generalizing done done' vs ws with
  | nil =>
    cases vs with
    | nil =>
      obtain rfl : ws = [] := by simpa using h.symm
      exact hdone
    | cons v vs =>
      obtain ⟨w, ws, rfl, -, -⟩ := List.map_eq_cons_iff.mp h.symm
      rw [matchingsFrom_nil_cons, matchingsFrom_nil_cons]
  | cons p ps ih =>
    obtain ⟨hp, hrest⟩ := List.forall_mem_cons.mp hps
    cases vs with
    | nil =>
      obtain rfl : ws = [] := by simpa using h.symm
      rw [matchingsFrom_cons_nil, matchingsFrom_cons_nil]
    | cons v vs =>
      obtain ⟨w, ws, rfl, hw, hws⟩ := List.map_eq_cons_iff.mp h.symm
      have hjoin : ((joinConsistent done (matchings allOrders p v)).map spelling).Perm
          ((joinConsistent done' (matchings allOrders p w)).map spelling) := by
        rw [spelling_joinConsistent, spelling_joinConsistent]
        exact hdone.flatMap fun a _ => ((hp v w hw.symm).map (a ++ ·)).filter _
      rw [matchingsFrom_cons, matchingsFrom_cons]
      exact ih hrest hjoin hws.symm

/-- The ways to match the parts of two values, of which there are as many and equal ones. -/
lemma spelling_parts_perm {ps : List Pattern} (hps : ∀ p ∈ ps, RespectsEquality allOrders p)
    {vs ws : List Value} (h : vs.map Value.sortKey = ws.map Value.sortKey) :
    ((if ps.length = vs.length then matchingsFrom allOrders ps [.empty] vs else []).map
      spelling).Perm
    ((if ps.length = ws.length then matchingsFrom allOrders ps [.empty] ws else []).map
      spelling) := by
  have hlen : vs.length = ws.length := by simpa using congrArg List.length h
  rw [hlen]
  split
  case isTrue => exact spelling_matchingsFrom_perm hps (.refl _) h
  case isFalse => exact .refl _

/-- The same for the elements of two sets, if all orders of them are tried. -/
lemma spelling_setParts_perm {ps : List Pattern} (hps : ∀ p ∈ ps, RespectsEquality true p)
    {vs ws : List Value} (h : (vs.map Value.sortKey).Perm (ws.map Value.sortKey)) :
    ((if ps.length = vs.length then
      (orderings vs).flatMap fun us => matchingsFrom true ps [.empty] us else []).map spelling).Perm
    ((if ps.length = ws.length then
      (orderings ws).flatMap fun us => matchingsFrom true ps [.empty] us else []).map
      spelling) := by
  have hlen : vs.length = ws.length := by simpa using h.length_eq
  rw [hlen]
  split
  case isTrue =>
    refine flatMap_perm_of_keys (k := List.map Value.sortKey)
      (fun us us' hus => spelling_matchingsFrom_perm hps (.refl _) hus) ?_
    rw [← orderings_map, ← orderings_map]
    exact orderings_perm h
  case isFalse => exact .refl _

/-! ### Equal values -/

/-- A pattern that asks for parts does not match a value without parts. -/
lemma matchings_of_not_hasParts {v : Value} (hv : v.hasParts = false) (ps : List Pattern) :
    matchings allOrders (.tuple ps) v = [] ∧ (∀ n, matchings allOrders (.record n ps) v = []) ∧
      matchings allOrders (.set ps) v = [] ∧ matchings allOrders (.seq ps) v = [] := by
  cases v with
  | tuple | record | set | seq => cases hv
  | _ => exact ⟨rfl, fun _ => rfl, rfl, rfl⟩

mutual

/-- **Equal values match a pattern in the same ways**, if all orders are tried or no set is taken
apart.

**Proof sketch.** Induction on the pattern. Equal values have equal parts, and those of tuples,
records and sequences are matched one by one (`spelling_parts_perm`). Those of sets are the same up
to their order, but then so are the orders that are tried (`spelling_setParts_perm`). -/
theorem spelling_matchings_perm (p : Pattern) (hp : allOrders = true ∨ p.isSetFree = true) :
    RespectsEquality allOrders p := by
  intro v w h
  have hparts := Value.equalParts_of_beq (Value.beq_iff.mpr h)
  match p with
  | .name n =>
    simp [matchings, spelling, h]
  | .ignore => exact .refl _
  | .literal l =>
    have hsame : (l == v) = (l == w) := by
      rw [Bool.eq_iff_iff, Value.beq_iff, Value.beq_iff, h]
    rw [matchings, matchings, hsame]
  | .tuple ps =>
    have hps := spelling_matchings_perm_each ps hp
    cases hparts with
    | tuple hvs => exact spelling_parts_perm hps hvs
    | whole hv hw =>
      rw [(matchings_of_not_hasParts hv ps).1, (matchings_of_not_hasParts hw ps).1]
    | _ => rfl
  | .record n ps =>
    have hps := spelling_matchings_perm_each ps hp
    cases hparts with
    | @record m fs gs hfs =>
      rw [matchings, matchings]
      by_cases hnm : n = m
      · simp only [hnm, true_and]
        rw [← List.length_map Prod.snd, ← List.length_map Prod.snd]
        exact spelling_parts_perm hps hfs
      · rw [if_neg fun h => hnm h.1, if_neg fun h => hnm h.1]
    | whole hv hw =>
      rw [(matchings_of_not_hasParts hv ps).2.1, (matchings_of_not_hasParts hw ps).2.1]
    | _ => rfl
  | .set ps =>
    have hall : allOrders = true := hp.resolve_right Bool.false_ne_true
    have hps := spelling_matchings_perm_each ps (.inl hall)
    cases hparts with
    | set hvs =>
      subst hall
      exact spelling_setParts_perm hps hvs
    | whole hv hw =>
      rw [(matchings_of_not_hasParts hv ps).2.2.1, (matchings_of_not_hasParts hw ps).2.2.1]
    | _ => rfl
  | .seq ps =>
    have hps := spelling_matchings_perm_each ps hp
    cases hparts with
    | seq hvs => exact spelling_parts_perm hps hvs
    | whole hv hw =>
      rw [(matchings_of_not_hasParts hv ps).2.2.2, (matchings_of_not_hasParts hw ps).2.2.2]
    | _ => rfl

/-- The same for each pattern of a list. -/
lemma spelling_matchings_perm_each (ps : List Pattern)
    (hps : allOrders = true ∨ areSetFree ps = true) : ∀ p ∈ ps, RespectsEquality allOrders p := by
  match ps with
  | [] => exact List.forall_mem_nil _
  | p :: ps =>
    have hboth : (allOrders = true ∨ p.isSetFree = true) ∧
        (allOrders = true ∨ areSetFree ps = true) := by
      rw [areSetFree, Bool.and_eq_true] at hps
      exact ⟨hps.imp_right And.left, hps.imp_right And.right⟩
    exact List.forall_mem_cons.mpr
      ⟨spelling_matchings_perm p hboth.1, spelling_matchings_perm_each ps hboth.2⟩

end

/-- **Lists with equal values**, each as often and in some order, match a pattern in ways that bind
the same. -/
theorem contents_flatMap_matchings_congr {p : Pattern}
    (hp : allOrders = true ∨ p.isSetFree = true) {vs ws : List Value}
    (h : (vs.map Value.sortKey).Perm (ws.map Value.sortKey)) :
    contents (vs.flatMap (p.matchings allOrders)) =
      contents (ws.flatMap (p.matchings allOrders)) :=
  Match.contents_eq_of_perm (flatMap_perm_of_keys (spelling_matchings_perm p hp) h)

/-- **The ways to match equal values** correspond to each other, one to one, so that corresponding
ways bind the same names in the same order to equal values, if all orders of the elements of sets
are tried. -/
theorem matchings_of_equal_values (p : Pattern) {v w : Value} (h : (v == w) = true) :
    (p.matchings true v).length = (p.matchings true w).length ∧
      ∃ f : Fin (p.matchings true v).length → Fin (p.matchings true w).length, f.Bijective ∧
        ∀ i, ((p.matchings true v).get i).Equal ((p.matchings true w).get (f i)) := by
  have hperm := spelling_matchings_perm p (.inl rfl) v w (Value.beq_iff.mp h)
  have hv : (p.matchings true v).length = ((p.matchings true v).map spelling).length := by simp
  have hw : ((p.matchings true w).map spelling).length = (p.matchings true w).length := by simp
  have hbijective : hperm.idxBij.Bijective := ⟨hperm.idxBij_injective, hperm.idxBij_surjective⟩
  refine ⟨by rw [hv, hperm.length_eq, hw], fun i => (hperm.idxBij (i.cast hv)).cast hw, ?_, ?_⟩
  · exact (finCongr hw).bijective.comp (hbijective.comp (finCongr hv).bijective)
  · intro i
    have hspelling := hperm.getElem_idxBij_eq_getElem (i.cast hv)
    rw [List.getElem_map, List.getElem_map] at hspelling
    exact Match.equal_iff.mpr hspelling.symm

/-- The pattern `{a, {b, c}}`. -/
def pairInSet : Pattern :=
  .set [.name "a", .set [.name "b", .name "c"]]

/-- The ways in which `{1, {2, 3}}` and `{{3, 2}, 1.0}` match a pattern of a set in a set
correspond to each other. -/
theorem matchings_of_equal_values_pairInSet :
    let v := Value.set [.int 1, .set [.int 2, .int 3]]
    let w := Value.set [.set [.int 3, .int 2], .real ⟨0x3ff0000000000000⟩]
    (v == w) = true ∧ (pairInSet.matchings true v).length = (pairInSet.matchings true w).length ∧
      ∃ f : Fin (pairInSet.matchings true v).length → Fin (pairInSet.matchings true w).length,
        f.Bijective ∧ ∀ i,
          ((pairInSet.matchings true v).get i).Equal ((pairInSet.matchings true w).get (f i)) := by
  intro v w
  have hinner : (Value.set [.int 2, .int 3]).sortKey = (Value.set [.int 3, .int 2]).sortKey :=
    Value.beq_iff.mp (Value.set_beq_set_iff.mpr (by decide +kernel))
  have hone : (Value.int 1).sortKey = (Value.real ⟨0x3ff0000000000000⟩).sortKey := by decide +kernel
  have h : (v == w) = true := by
    refine Value.set_beq_set_iff.mpr ?_
    rw [List.map_cons, List.map_cons, List.map_nil, hinner, hone]
    exact .swap _ _ _
  exact ⟨h, matchings_of_equal_values pairInSet h⟩

end Pattern

end BoundedLogic
