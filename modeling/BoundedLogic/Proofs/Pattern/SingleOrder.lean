import BoundedLogic.Proofs.Pattern.EqualValues

set_option relaxedAutoImplicit false
set_option autoImplicit false

/-!
# One order or all orders

A set pattern is matched against the elements of a set in the order in which the set lists them, or
in all orders. With one order there is at most one way to match, as every part has at most one. The
listed order is the first of all orders, at every depth; so if there is such a way, it is the first
one that is found with all orders. A pattern that takes no set apart is matched alike.

Both facts are relations between what the parts find with one order and with all, which the joining
of parts keeps.

## Main definitions

* `BoundedLogic.AtMostFirst` — a list that is empty, or holds only the first item of another one.
* `BoundedLogic.Pattern.KeptByJoining` — relations between ways to match that are passed on from the
  parts of a pattern to the pattern.

## Main results

* `BoundedLogic.Pattern.KeptByJoining.matchings` — they hold between the ways with one order and
  with all.
* `BoundedLogic.Pattern.atMostFirst_matchings` — with one order a pattern finds the first of the
  ways with all orders, at most.
* `BoundedLogic.Pattern.matchings_eq_of_isSetFree` — without set patterns it finds the same.
-/

namespace BoundedLogic

/-! ### Nothing or the first -/

section AtMostFirst

variable {α : Type}

/-- The first list is empty, or it holds the first item of the second list and no other. -/
inductive AtMostFirst : List α → List α → Prop
  | none (as : List α) : AtMostFirst [] as
  | first (a : α) (as : List α) : AtMostFirst [a] (a :: as)

/-- Such a list has at most one item, -/
lemma AtMostFirst.length_le_one {as bs : List α} (h : AtMostFirst as bs) : as.length ≤ 1 := by
  cases h <;> simp

/-- which is in the other list. -/
lemma AtMostFirst.sublist {as bs : List α} (h : AtMostFirst as bs) : as.Sublist bs := by
  cases h <;> simp

/-- What follows in the other list is of no concern. -/
lemma AtMostFirst.append {as bs : List α} (h : AtMostFirst as bs) (cs : List α) :
    AtMostFirst as (bs ++ cs) := by
  cases h with
  | none => exact .none _
  | first a as => exact .first a (as ++ cs)

end AtMostFirst

namespace Pattern

/-! ### Relations between the modes -/

/-- The relation holds between ways to match a pattern if it holds between those of its parts. -/
structure KeptByJoining (R : List Match → List Match → Prop) : Prop where
  /-- No way is found. -/
  nil : R [] []
  /-- One way is found. -/
  one : ∀ m, R [m] [m]
  /-- Ways are continued by those of the next part. -/
  join : ∀ {done done' next next' : List Match}, R done done' → R next next' →
    R (joinConsistent done next) (joinConsistent done' next')

variable {R : List Match → List Match → Prop}

/-- The relation holds between the ways to match a pattern with one order and with all. -/
def RelatesModes (R : List Match → List Match → Prop) (p : Pattern) : Prop :=
  ∀ v, R (p.matchings false v) (p.matchings true v)

namespace KeptByJoining

/-- Matching part by part, after ways that are related. -/
lemma matchingsFrom (hR : KeptByJoining R) {ps : List Pattern}
    (hps : ∀ p ∈ ps, RelatesModes R p) {done done' : List Match} (hdone : R done done')
    (vs : List Value) :
    R (Pattern.matchingsFrom false ps done vs) (Pattern.matchingsFrom true ps done' vs) := by
  induction ps generalizing done done' vs with
  | nil =>
    cases vs with
    | nil =>
      rw [Pattern.matchingsFrom, Pattern.matchingsFrom]
      exact hdone
    | cons v vs =>
      rw [matchingsFrom_nil_cons, matchingsFrom_nil_cons]
      exact hR.nil
  | cons p ps ih =>
    obtain ⟨hp, hrest⟩ := List.forall_mem_cons.mp hps
    cases vs with
    | nil =>
      rw [matchingsFrom_cons_nil, matchingsFrom_cons_nil]
      exact hR.nil
    | cons v vs =>
      rw [matchingsFrom_cons, matchingsFrom_cons]
      exact ih hrest (hR.join hdone (hp v)) vs

/-- Matching the parts of a value, if there are as many as of the pattern. -/
lemma parts (hR : KeptByJoining R) {ps : List Pattern} (hps : ∀ p ∈ ps, RelatesModes R p)
    (vs : List Value) :
    R (if ps.length = vs.length then Pattern.matchingsFrom false ps [.empty] vs else [])
      (if ps.length = vs.length then Pattern.matchingsFrom true ps [.empty] vs else []) := by
  split
  case isTrue => exact hR.matchingsFrom hps (hR.one _) vs
  case isFalse => exact hR.nil

/-- Matching the elements of a set. The order in which the set lists them is the first of all. -/
lemma setParts (hR : KeptByJoining R) (happend : ∀ ms ms' rest, R ms ms' → R ms (ms' ++ rest))
    {ps : List Pattern} (hps : ∀ p ∈ ps, RelatesModes R p) (vs : List Value) :
    R (matchings false (.set ps) (.set vs)) (matchings true (.set ps) (.set vs)) := by
  obtain ⟨others, horders⟩ := exists_orderings_eq_cons vs
  rw [matchings, matchings]
  split
  case isTrue =>
    rw [if_neg Bool.false_ne_true, if_pos rfl, horders, List.flatMap_singleton, List.flatMap_cons]
    exact happend _ _ _ (hR.matchingsFrom hps (hR.one _) vs)
  case isFalse => exact hR.nil

mutual

/-- **With one order and with all**, a pattern finds ways that are related, if it takes no set apart
or the relation does not mind the ways with the other orders.

**Proof sketch.** Induction on the pattern. The parts of a value are matched in one order only,
unless it is a set, where this order is the first of all (`setParts`). -/
theorem matchings (hR : KeptByJoining R) (p : Pattern)
    (hp : p.isSetFree = true ∨ ∀ ms ms' rest, R ms ms' → R ms (ms' ++ rest)) :
    RelatesModes R p := by
  intro v
  match p with
  | .name n =>
    rw [Pattern.matchings, Pattern.matchings]
    exact hR.one _
  | .ignore =>
    rw [Pattern.matchings, Pattern.matchings]
    exact hR.one _
  | .literal l =>
    rw [Pattern.matchings, Pattern.matchings]
    split
    case isTrue => exact hR.one _
    case isFalse => exact hR.nil
  | .tuple ps =>
    have hps := matchings_each hR ps hp
    cases v with
    | tuple vs => exact hR.parts hps vs
    | _ => exact hR.nil
  | .record n ps =>
    have hps := matchings_each hR ps hp
    cases v with
    | record m fs =>
      rw [Pattern.matchings, Pattern.matchings, ← List.length_map Prod.snd]
      by_cases hnm : n = m
      · simp only [hnm, true_and]
        exact hR.parts hps (fs.map Prod.snd)
      · rw [if_neg fun h => hnm h.1, if_neg fun h => hnm h.1]
        exact hR.nil
    | _ => exact hR.nil
  | .set ps =>
    have happend := hp.resolve_left Bool.false_ne_true
    have hps := matchings_each hR ps (.inr happend)
    cases v with
    | set vs => exact hR.setParts happend hps vs
    | _ => exact hR.nil
  | .seq ps =>
    have hps := matchings_each hR ps hp
    cases v with
    | seq vs => exact hR.parts hps vs
    | _ => exact hR.nil

/-- The same for each pattern of a list. -/
lemma matchings_each (hR : KeptByJoining R) (ps : List Pattern)
    (hps : areSetFree ps = true ∨ ∀ ms ms' rest, R ms ms' → R ms (ms' ++ rest)) :
    ∀ p ∈ ps, RelatesModes R p := by
  match ps with
  | [] => exact List.forall_mem_nil _
  | p :: ps =>
    rw [areSetFree, Bool.and_eq_true] at hps
    exact List.forall_mem_cons.mpr
      ⟨matchings hR p (hps.imp_left And.left), matchings_each hR ps (hps.imp_left And.right)⟩

end

end KeptByJoining

/-! ### What is found with one order -/

/-- The first way continued by the first way comes first, if it is consistent. -/
lemma keptByJoining_atMostFirst : KeptByJoining AtMostFirst where
  nil := .none _
  one m := .first m []
  join := by
    intro done done' next next' hdone hnext
    cases hdone with
    | none => exact .none _
    | first m ms =>
      cases hnext with
      | none => exact .none _
      | first n ns =>
        by_cases h : (m ++ n).isConsistent = true
        · simp only [joinConsistent, List.flatMap_cons, List.flatMap_nil, List.map_cons,
            List.map_nil, List.filter_cons_of_pos h, List.filter_nil, List.cons_append,
            List.append_nil]
          exact .first _ _
        · simp only [joinConsistent, List.flatMap_cons, List.flatMap_nil, List.map_cons,
            List.map_nil, List.filter_cons_of_neg h, List.filter_nil, List.append_nil]
          exact .none _

/-- **With one order** a pattern finds the first of the ways with all orders, at most. -/
theorem atMostFirst_matchings (p : Pattern) (v : Value) :
    AtMostFirst (p.matchings false v) (p.matchings true v) :=
  keptByJoining_atMostFirst.matchings p (.inr fun _ _ rest h => h.append rest) v

/-- The set `{1, {2, 3}}` matches the pattern `{a, {b, c}}` in one way and in two. -/
example : (pairInSet.matchings false (.set [.int 1, .set [.int 2, .int 3]])).length = 1 ∧
    (pairInSet.matchings true (.set [.int 1, .set [.int 2, .int 3]])).length = 2 := by
  decide +kernel

/-- **Without set patterns** a pattern finds the same ways. -/
theorem matchings_eq_of_isSetFree {p : Pattern} (hp : p.isSetFree = true) (v : Value) :
    p.matchings false v = p.matchings true v := by
  have hkept : KeptByJoining Eq := ⟨rfl, fun _ => rfl, fun hdone hnext => by rw [hdone, hnext]⟩
  exact hkept.matchings p (.inl hp) v

end Pattern

end BoundedLogic
