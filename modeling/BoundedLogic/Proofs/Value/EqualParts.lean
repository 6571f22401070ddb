import BoundedLogic.Proofs.Value.HashEquality

set_option relaxedAutoImplicit false
set_option autoImplicit false

/-!
# The parts of equal values

Equal values need not be the same, but what they are made of is equal as well: the items of tuples
and sequences one by one, the fields of records, and the elements of sets in some order. A value
that has no such parts is equal only to values that have none.

## Main definitions

* `BoundedLogic.Value.EqualParts` — values with equal parts.

## Main results

* `BoundedLogic.Value.equalParts_of_beq` — equal values have equal parts.
-/

namespace BoundedLogic

namespace Value

/-- Is the value made of parts that a pattern can take apart? -/
def hasParts : Value → Bool
  | .tuple _ | .record _ _ | .set _ | .seq _ => true
  | _ => false

/-- The values are made of equal parts in the same way, or none of them has parts. -/
inductive EqualParts : Value → Value → Prop
  /-- Tuples with equal items. -/
  | tuple {vs ws : List Value} (h : vs.map sortKey = ws.map sortKey) :
    EqualParts (.tuple vs) (.tuple ws)
  /-- Records of one name, the values of whose fields are equal. -/
  | record {n : String} {fs gs : List (String × Value)}
    (h : (fs.map Prod.snd).map sortKey = (gs.map Prod.snd).map sortKey) :
    EqualParts (.record n fs) (.record n gs)
  /-- Sets with equal elements, in some order. -/
  | set {vs ws : List Value} (h : (vs.map sortKey).Perm (ws.map sortKey)) :
    EqualParts (.set vs) (.set ws)
  /-- Sequences with equal items. -/
  | seq {vs ws : List Value} (h : vs.map sortKey = ws.map sortKey) :
    EqualParts (.seq vs) (.seq ws)
  /-- Values without parts. -/
  | whole {v w : Value} (hv : v.hasParts = false) (hw : w.hasParts = false) : EqualParts v w

/-- Arranging a value does not change its kind. -/
lemma kind_canonical (v : Value) : v.canonical.kind = v.kind := by
  cases v <;> rfl

/-- Equal values have one rank. -/
lemma rank_eq_of_beq {v w : Value} (h : (v == w) = true) : v.kind.rank = w.kind.rank := by
  rw [← kind_canonical v, ← kind_canonical w]
  exact rank_eq_of_compareListed (beq_iff_cmp_eq.mp h)

/-- Which values have parts can be told by their rank. -/
lemma hasParts_eq (v : Value) :
    v.hasParts = (6 ≤ v.kind.rank && v.kind.rank ≤ 9 : Bool) := by
  cases v <;> rfl

/-- Lists of values compare equal if their keys are the same. -/
lemma compareLex_cmp_eq_eq_iff {vs ws : List Value} :
    List.compareLex cmp vs ws = .eq ↔ vs.map sortKey = ws.map sortKey := by
  rw [compareLex_cmp_eq_compare]
  exact Std.LawfulEqOrd.compare_eq_iff_eq

/-- Tuples are equal if their items have the same keys in the same places. -/
lemma tuple_beq_tuple_iff {vs ws : List Value} :
    (tuple vs == tuple ws) = true ↔ vs.map sortKey = ws.map sortKey := by
  rw [beq_iff_cmp_eq, cmp_tuple, compareLex_cmp_eq_eq_iff]

/-- Sequences are equal if their items have the same keys in the same places. -/
lemma seq_beq_seq_iff {vs ws : List Value} :
    (seq vs == seq ws) = true ↔ vs.map sortKey = ws.map sortKey := by
  rw [beq_iff_cmp_eq, cmp_seq, compareLex_cmp_eq_eq_iff]

/-- Integers are equal only to themselves, among the integers. -/
lemma int_beq_int_iff {i j : Int64} : (int i == int j) = true ↔ i = j := by
  have hcmp : (int i).cmp (int j) = compare i j := by
    simp only [cmp, canonical, compareListed]
  rw [beq_iff_cmp_eq, hcmp, Std.LawfulEqOrd.compare_eq_iff_eq]

/-- Lists of fields that compare equal have equal values. -/
lemma map_sortKey_eq_of_compareLex_fields {fs gs : List (String × Value)}
    (h : List.compareLex (fun f g => (compare f.1 g.1).then (f.2.cmp g.2)) fs gs = .eq) :
    (fs.map Prod.snd).map sortKey = (gs.map Prod.snd).map sortKey := by
  induction fs generalizing gs with
  | nil =>
    cases gs with
    | nil => rfl
    | cons g gs => simp [List.compareLex] at h
  | cons f fs ih =>
    cases gs with
    | nil => simp [List.compareLex] at h
    | cons g gs =>
      rw [List.compareLex_cons_cons, Ordering.then_eq_eq, Ordering.then_eq_eq] at h
      obtain ⟨⟨-, hvalue⟩, hrest⟩ := h
      rw [List.map_cons, List.map_cons, List.map_cons, List.map_cons, ih hrest,
        cmp_eq_eq_iff.mp hvalue]

/-- **Equal values have equal parts.**

**Proof sketch.** Equal values have one rank, and the kinds with parts have a rank each. Within one
of these kinds the order, and so equality, goes part by part. -/
theorem equalParts_of_beq {v w : Value} (h : (v == w) = true) : EqualParts v w := by
  have hrank := rank_eq_of_beq h
  have hcmp := beq_iff_cmp_eq.mp h
  by_cases hv : v.hasParts = false
  · exact .whole hv (by rw [hasParts_eq, ← hrank, ← hasParts_eq, hv])
  cases v with
  | tuple vs =>
    cases w with
    | tuple ws =>
      rw [cmp_tuple, compareLex_cmp_eq_eq_iff] at hcmp
      exact .tuple hcmp
    | _ => simp [kind, Kind.rank] at hrank
  | record m fs =>
    cases w with
    | record n gs =>
      rw [cmp_record, Ordering.then_eq_eq] at hcmp
      obtain rfl := eq_of_compare_string hcmp.1
      exact .record (map_sortKey_eq_of_compareLex_fields hcmp.2)
    | _ => simp [kind, Kind.rank] at hrank
  | set vs =>
    cases w with
    | set ws => exact .set (set_beq_set_iff.mp h)
    | _ => simp [kind, Kind.rank] at hrank
  | seq vs =>
    cases w with
    | seq ws =>
      rw [cmp_seq, compareLex_cmp_eq_eq_iff] at hcmp
      exact .seq hcmp
    | _ => simp [kind, Kind.rank] at hrank
  | _ => exact absurd rfl hv

end Value

end BoundedLogic
