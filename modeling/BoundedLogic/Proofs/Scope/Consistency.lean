import BoundedLogic.Proofs.Scope.Contents
import BoundedLogic.Proofs.Scope.Names

set_option relaxedAutoImplicit false
set_option autoImplicit false

/-!
# Consistent matches

Whether a match collapses to a frame is asked when matches are put together: parts that cannot be
continued are given up, and so are the combinations that a predicate should not be asked about. The
answer does not depend on the order in which the names were bound, and for two matches together it
follows from the answers for each and from the values of their common names. That is why a match can
be given up as soon as one of its parts is not consistent.

## Main definitions

* `BoundedLogic.Match.AgreesWith` — the common names of two matches have equal values.

## Main results

* `BoundedLogic.Match.get?_of_mem_entries` — the entries of the frame are the first bindings.
* `BoundedLogic.Match.isConsistent_append_iff` — two consistent matches are consistent together if
  they agree with each other.
* `BoundedLogic.Match.toFrame?_decides_consistency` — what becomes of a match.
-/

namespace BoundedLogic

/-! ### Entries of a frame -/

/-- An entry is found under its name if no name is repeated. -/
lemma Named.find?_of_mem {ps : List Named} (h : (ps.map Prod.fst).Nodup) {p : Named} (hp : p ∈ ps) :
    Named.find? ps p.1 = some p.2 := by
  obtain ⟨v, hv⟩ := Named.exists_find?_of_mem hp
  have hsame : (p.1, v) = p := List.inj_on_of_nodup_map h (Named.mem_of_find? hv) hp rfl
  rw [hv, ← hsame]

namespace Match

variable {m n : Match} {f g : Frame}

/-- A frame has each name once. -/
lemma nodup_names_of_toFrame? (h : m.toFrame? = some f) : f.names.Nodup := by
  rw [names_of_toFrame? h]
  exact nodup_eraseDups _

/-- **The entries of the frame of a match** are first bindings of their names. -/
theorem get?_of_mem_entries (h : m.toFrame? = some f) {e : Named} (he : e ∈ f.entries) :
    m.get? e.1 = some e.2 := by
  rw [← get?_of_toFrame? h]
  exact Named.find?_of_mem (nodup_names_of_toFrame? h) he

/-! ### Matches in another order -/

/-- The order of the bindings does not matter to the content. -/
lemma content_eq_of_perm (h : m.pairs.Perm n.pairs) : m.content = n.content :=
  Multiset.coe_eq_coe.mpr (h.map _)

/-- The order of the bindings does not matter to consistency. -/
lemma isConsistent_eq_of_perm (h : m.pairs.Perm n.pairs) : m.isConsistent = n.isConsistent := by
  rw [Bool.eq_iff_iff, isConsistent_iff_unambiguous, isConsistent_iff_unambiguous,
    content_eq_of_perm h]

/-- It does not matter to the values of the names either, up to equality. -/
lemma get?_beq_of_perm (h : m.pairs.Perm n.pairs) (hf : m.toFrame? = some f)
    (hg : n.toFrame? = some g) (name : String) : (f.get? name == g.get? name) = true :=
  Value.option_beq_iff.mpr (get?_congr_of_content_eq (content_eq_of_perm h) hf hg name)

/-! ### Matches put together -/

/-- The first values of every common name are equal. -/
def AgreesWith (m n : Match) : Prop :=
  ∀ name v w, m.get? name = some v → n.get? name = some w → (v == w) = true

/-- If the bindings of each match agree, their first values stand for all others. -/
lemma Agrees.agreesWith_iff (hm : m.Agrees) (hn : n.Agrees) :
    m.AgreesWith n ↔ ∀ p ∈ m.pairs, ∀ q ∈ n.pairs, p.1 = q.1 → (p.2 == q.2) = true := by
  constructor
  · intro h p hp q hq hpq
    obtain ⟨v, hv, hvp⟩ := hm.exists_get? hp
    obtain ⟨w, hw, hwq⟩ := hn.exists_get? hq
    have hvw : (v == w) = true := h p.1 v w hv (hpq ▸ hw)
    exact BEq.trans (BEq.trans (BEq.symm hvp) hvw) hwq
  · intro h name v w hv hw
    exact h _ (Named.mem_of_find? hv) _ (Named.mem_of_find? hw) rfl

/-- **Two matches are consistent together** if each of them is and they agree on their common
names. -/
theorem isConsistent_append_iff (m n : Match) :
    (m ++ n).isConsistent = true ↔
      m.isConsistent = true ∧ n.isConsistent = true ∧ m.AgreesWith n := by
  rw [isConsistent_iff, isConsistent_iff, isConsistent_iff, Agrees, pairs_append,
    Named.agree_append_iff]
  exact and_congr_right fun hm => and_congr_right fun hn => (Agrees.agreesWith_iff hm hn).symm

/-! ### What becomes of a match -/

/-- **Going through the bindings once decides consistency**, for every match.

* There is a frame if and only if every two bindings of one name have equal values.
* The frame has the names of the match, in the order of their first bindings and none twice, and
  each of them with the value of its first binding.
* In another order of the bindings there is a frame if there was one before, and every name has an
  equal value in it.
* After two matches are put together there is a frame if and only if there is one for each of them
  and every common name has equal values in both. -/
theorem toFrame?_decides_consistency (m : Match) :
    (m.toFrame?.isSome = true ↔
      ∀ p ∈ m.pairs, ∀ q ∈ m.pairs, p.1 = q.1 → (p.2 == q.2) = true) ∧
    (∀ f, m.toFrame? = some f →
      f.names = (m.pairs.map Prod.fst).eraseDups ∧ f.names.Nodup ∧
        ∀ e ∈ f.entries, m.get? e.1 = some e.2) ∧
    (∀ n : Match, m.pairs.Perm n.pairs → n.toFrame?.isSome = m.toFrame?.isSome ∧
      ∀ f g, m.toFrame? = some f → n.toFrame? = some g →
        ∀ name, (f.get? name == g.get? name) = true) ∧
    (∀ n : Match, (m ++ n).toFrame?.isSome = true ↔
      ∃ f g, m.toFrame? = some f ∧ n.toFrame? = some g ∧
        ∀ name v w, f.get? name = some v → g.get? name = some w → (v == w) = true) := by
  refine ⟨isConsistent_iff, fun f hf => ?_, fun n hperm => ?_, fun n => ?_⟩
  · exact ⟨names_of_toFrame? hf, nodup_names_of_toFrame? hf, fun e => get?_of_mem_entries hf⟩
  · exact ⟨(isConsistent_eq_of_perm hperm).symm, fun f g => get?_beq_of_perm hperm⟩
  · refine (isConsistent_append_iff m n).trans ?_
    constructor
    · rintro ⟨hm, hn, hagree⟩
      obtain ⟨f, hf⟩ := Option.isSome_iff_exists.mp hm
      obtain ⟨g, hg⟩ := Option.isSome_iff_exists.mp hn
      refine ⟨f, g, hf, hg, fun name v w hv hw => ?_⟩
      rw [get?_of_toFrame? hf] at hv
      rw [get?_of_toFrame? hg] at hw
      exact hagree name v w hv hw
    · rintro ⟨f, g, hf, hg, hagree⟩
      refine ⟨by rw [isConsistent, hf]; rfl, by rw [isConsistent, hg]; rfl, fun name v w hv hw => ?_⟩
      rw [← get?_of_toFrame? hf] at hv
      rw [← get?_of_toFrame? hg] at hw
      exact hagree name v w hv hw

/-- The bindings `x = 1, y = true, x = 1.0` and the same in another order: `x` has its first value
in the frame, and an equal one in the other frame. -/
theorem toFrame?_decides_consistency_equalX :
    let m := mk [("x", .int 1), ("y", .bool true), ("x", .real ⟨0x3ff0000000000000⟩)]
    let n := mk [("x", .real ⟨0x3ff0000000000000⟩), ("y", .bool true), ("x", .int 1)]
    let f := Frame.mk [("x", .int 1), ("y", .bool true)]
    let g := Frame.mk [("x", .real ⟨0x3ff0000000000000⟩), ("y", .bool true)]
    m.toFrame? = some f ∧ n.toFrame? = some g ∧ m.pairs.Perm n.pairs ∧ f.names.Nodup ∧
      (f.get? "x" == g.get? "x") = true := by
  intro m n f g
  have hone : (Value.int 1 == .real ⟨0x3ff0000000000000⟩) = true := by decide +kernel
  have hf : m.toFrame? = some f := by
    simp [m, f, toFrame?, collapse, Frame.get?, Named.find?, hone, Frame.bind, Frame.bindEntry,
      Frame.empty]
  have hg : n.toFrame? = some g := by
    simp [n, g, toFrame?, collapse, Frame.get?, Named.find?, BEq.symm hone, Frame.bind,
      Frame.bindEntry, Frame.empty]
  have hperm : m.pairs.Perm n.pairs := (List.reverse_perm m.pairs).symm
  obtain ⟨-, hframe, hreordered, -⟩ := toFrame?_decides_consistency m
  exact ⟨hf, hg, hperm, (hframe f hf).2.1, (hreordered n hperm).2 f g hf hg "x"⟩

end Match

end BoundedLogic
