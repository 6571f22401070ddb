import BoundedLogic.Proofs.Enumeration.Orderings
import BoundedLogic.Proofs.ValueSet.Extensional

set_option relaxedAutoImplicit false
set_option autoImplicit false

/-!
# The orderings of a set

An ordering of a set is known by the positions from which it takes its elements, one after another.
The tuples of positions are all permutations of the positions, in lexicographic order; and since no
two elements are equal, different tuples give lists that differ at some place. As sets all orderings
are equal to the set they order.

## Main definitions

* `BoundedLogic.ValueSet.EnumeratesOrderings` — the lists are the orderings of a set, by position.

## Main results

* `BoundedLogic.ValueSet.orderings_enumerates` — the orderings of a set, each once.
-/

namespace BoundedLogic

namespace ValueSet

variable {vs : ValueSet}

/-- The lists are the orderings of a set, in lexicographic order of the positions from which they
take its elements. -/
structure EnumeratesOrderings (vs : ValueSet) (lists : List (List Value)) : Prop where
  /-- There are as many as ways to order the elements. -/
  length_eq : lists.length = vs.size.factorial
  /-- Each list takes its elements from a tuple of positions, in which every position is once. From
  list to list the tuples increase. -/
  exists_positions : ∃ tuples : List (List Nat), tuples.Pairwise (· < ·) ∧
    (∀ ps ∈ tuples, ps.Perm (List.range vs.size)) ∧
    lists = tuples.map (atPositions vs.elements)
  /-- The lists are the permutations of the elements. -/
  mem_iff : ∀ ws, ws ∈ lists ↔ ws.Perm vs.elements
  /-- No two of them have equal values at all places. -/
  pairwise : lists.Pairwise fun as bs => (as == bs) = false
  /-- As a set each of them is valid, and equal to the set. -/
  beq : ∀ ws ∈ lists, (ofDistinct ws).IsValid ∧ (ofDistinct ws == vs) = true
  /-- Without elements there is one, which is empty. -/
  eq_of_isEmpty : vs.elements = [] → lists = [[]]

/-- A set with the same elements is valid, and equal. -/
lemma IsValid.ofDistinct_of_perm (h : vs.IsValid) {ws : List Value} (hperm : ws.Perm vs.elements) :
    (ofDistinct ws).IsValid ∧ (ofDistinct ws == vs) = true := by
  have hws : (ofDistinct ws).IsValid := isValid_ofDistinct (h.distinct.of_perm hperm.symm)
  exact ⟨hws, (hws.beq_iff_perm h).mpr (hperm.map Value.sortKey)⟩

/-- Different orderings of a valid set have unequal values at some place: their keys are different
orderings of the keys, of which there are no two the same. -/
lemma IsValid.pairwise_orderings (h : vs.IsValid) :
    (orderings vs.elements).Pairwise fun as bs => (as == bs) = false := by
  have hkeys : ((orderings vs.elements).map (List.map Value.sortKey)).Nodup := by
    rw [← orderings_map]
    exact nodup_orderings h.nodup_keys
  refine (List.pairwise_map.mp hkeys).imp fun {as bs} hne => ?_
  exact Bool.eq_false_of_not_eq_true fun heq => hne (beq_list_iff.mp heq)

/-- **The orderings of a valid set** are enumerated, each once, in lexicographic order of the
positions of the elements.

**Proof sketch.** The tuples of positions are those of the library, which are in lexicographic order
(`pairwise_indexPermutations`). -/
theorem orderings_enumerates (h : vs.IsValid) :
    vs.EnumeratesOrderings (orderings vs.elements) where
  length_eq := length_orderings _
  exists_positions :=
    ⟨indexPermutations vs.size, pairwise_indexPermutations _,
      fun _ hps => mem_indexPermutations_iff.mp hps, orderings_eq _⟩
  mem_iff _ := mem_orderings_iff
  pairwise := h.pairwise_orderings
  beq _ hws := h.ofDistinct_of_perm (mem_orderings_iff.mp hws)
  eq_of_isEmpty hempty := by rw [hempty]; rfl

/-- The orderings of `{3, 1.0, 2}`, whose elements are not listed by size. -/
theorem orderings_enumerates_threeOneTwo :
    let one : Value := .real ⟨0x3ff0000000000000⟩
    let vs := ofDistinct [.int 3, one, .int 2]
    vs.IsValid ∧ vs.EnumeratesOrderings
      [[.int 3, one, .int 2], [.int 3, .int 2, one], [one, .int 3, .int 2], [one, .int 2, .int 3],
        [.int 2, .int 3, one], [.int 2, one, .int 3]] := by
  intro one vs
  have hvs : vs.IsValid := isValid_ofDistinct (by
    rw [Value.Distinct]
    decide +kernel)
  exact ⟨hvs, orderings_enumerates hvs⟩

end ValueSet

end BoundedLogic
