import BoundedLogic.Proofs.ValueSet.Increasing

set_option relaxedAutoImplicit false
set_option autoImplicit false

/-!
# Valid sets

A set is valid if its elements are pairwise unequal and its increasing order, where it is known, is
right. Every operation keeps sets valid: adding an element first looks whether it is there, and
drops the order, and arranging the elements makes the order that of the list. In a valid set binary
search and scan agree on membership, whatever is known of the order.

## Main definitions

* `BoundedLogic.Value.Among` — a value is equal to one of a list.
* `BoundedLogic.Value.firstOccurrences` — the values of a list, of equal ones the first.
* `BoundedLogic.ValueSet.IsValid` — the representation invariant of sets.

## Main results

* `BoundedLogic.ValueSet.IsValid.contains_iff` — membership is being equal to an element.
* `BoundedLogic.ValueSet.IsValid.insert`, `BoundedLogic.ValueSet.IsValid.extend`,
  `BoundedLogic.ValueSet.IsValid.union`, `BoundedLogic.ValueSet.IsValid.sort` — operations keep sets
  valid.
* `BoundedLogic.ValueSet.IsValid.elements_extend` — the elements stand in the order in which they
  were first added.
-/

namespace BoundedLogic

namespace Value

/-! ### Values of a list up to equality -/

/-- Some value of the list is equal to `v`. -/
def Among (v : Value) (vs : List Value) : Prop :=
  ∃ w ∈ vs, (w == v) = true

lemma among_iff_mem {v : Value} {vs : List Value} : v.Among vs ↔ v.sortKey ∈ vs.map sortKey := by
  simp only [Among, List.mem_map, beq_iff]

lemma any_beq_iff {v : Value} {vs : List Value} :
    (vs.any fun w => w == v) = true ↔ v.Among vs := by
  rw [List.any_eq_true]
  rfl

lemma among_append {v : Value} {as bs : List Value} :
    v.Among (as ++ bs) ↔ v.Among as ∨ v.Among bs := by
  simp [among_iff_mem]

/-- The values of a list without those that are equal to one before them. -/
def firstOccurrences : List Value → List Value
  | [] => []
  | v :: vs => v :: (firstOccurrences vs).filter fun w => !(v == w)

/-- Dropping repetitions drops no value.

**Proof sketch.** Induction on the list. What is dropped after its first value is equal to it. -/
lemma among_firstOccurrences {v : Value} {vs : List Value} :
    v.Among (firstOccurrences vs) ↔ v.Among vs := by
  induction vs with
  | nil => rfl
  | cons u us ih =>
    constructor
    · rintro ⟨w, hw, hwv⟩
      rcases List.mem_cons.mp hw with rfl | hw
      · exact ⟨w, List.mem_cons_self, hwv⟩
      · obtain ⟨x, hx, hxv⟩ := ih.mp ⟨w, List.mem_of_mem_filter hw, hwv⟩
        exact ⟨x, List.mem_cons_of_mem u hx, hxv⟩
    · rintro ⟨w, hw, hwv⟩
      by_cases huv : (u == v) = true
      · exact ⟨u, List.mem_cons_self, huv⟩
      rcases List.mem_cons.mp hw with rfl | hw
      · exact absurd hwv huv
      · obtain ⟨x, hx, hxv⟩ := ih.mpr ⟨w, hw, hwv⟩
        have hux : (u == x) = false :=
          Bool.eq_false_of_not_eq_true fun h => huv (BEq.trans h hxv)
        exact ⟨x, List.mem_cons_of_mem u (List.mem_filter.mpr ⟨hx, by rw [hux]; rfl⟩), hxv⟩

/-- Distinct values are all kept. -/
lemma firstOccurrences_of_distinct {vs : List Value} (h : Distinct vs) :
    firstOccurrences vs = vs := by
  induction vs with
  | nil => rfl
  | cons v vs ih =>
    obtain ⟨hv, hvs⟩ := List.pairwise_cons.mp h
    rw [firstOccurrences, ih hvs, List.filter_eq_self.mpr fun w hw => by rw [hv w hw]; rfl]

/-- One more value is dropped if it is equal to one before it. -/
lemma firstOccurrences_concat (vs : List Value) (v : Value) :
    firstOccurrences (vs ++ [v]) =
      if vs.any fun w => w == v then firstOccurrences vs else firstOccurrences vs ++ [v] := by
  induction vs with
  | nil => rfl
  | cons u us ih =>
    rw [List.cons_append, firstOccurrences, ih, List.any_cons]
    by_cases hus : (us.any fun w => w == v) = true
    · rw [if_pos hus, hus, Bool.or_true, if_pos rfl, firstOccurrences]
    · rw [if_neg hus, Bool.eq_false_of_not_eq_true hus, Bool.or_false, List.filter_append,
        firstOccurrences]
      by_cases huv : (u == v) = true
      · simp [huv]
      · simp [huv]

end Value

namespace ValueSet

/-- The representation invariant of sets. -/
structure IsValid (s : ValueSet) : Prop where
  /-- No two elements are equal. -/
  distinct : Value.Distinct s.elements
  /-- The increasing order is right where it is known. -/
  order : ∀ ps, s.order = some ps → Value.IsOrderOf s.elements ps

variable {s t : ValueSet}

/-! ### The increasing order -/

lemma sorted_eq (s : ValueSet) : s.sorted = atPositions s.elements s.positions := by
  simp only [sorted, atPositions, List.getElem?_toArray]

/-- The positions of a valid set are its increasing order, known or worked out. -/
lemma IsValid.isOrderOf_positions (h : s.IsValid) : Value.IsOrderOf s.elements s.positions := by
  cases hs : s.order with
  | none =>
    rw [positions, hs]
    exact Value.isOrderOf_sortedPositions h.distinct
  | some ps =>
    rw [positions, hs]
    exact h.order ps hs

lemma IsValid.sorted_perm (h : s.IsValid) : s.sorted.Perm s.elements := by
  rw [sorted_eq]
  exact h.isOrderOf_positions.atPositions_perm

lemma IsValid.increasing_sorted (h : s.IsValid) : Value.Increasing s.sorted := by
  rw [sorted_eq]
  exact h.isOrderOf_positions.increasing

lemma IsValid.length_sorted (h : s.IsValid) : s.sorted.length = s.size :=
  h.sorted_perm.length_eq

lemma IsValid.among_sorted (h : s.IsValid) {v : Value} : v.Among s.sorted ↔ v.Among s.elements := by
  rw [Value.among_iff_mem, Value.among_iff_mem, (h.sorted_perm.map _).mem_iff]

/-! ### Membership -/

/-- Binary search in the increasing order finds the values that are equal to an element. -/
lemma IsValid.searchSorted_iff (h : s.IsValid) (v : Value) :
    Value.searchSorted s.sorted.toArray v 0 s.size = true ↔ v.Among s.elements := by
  have hsize : s.sorted.toArray.size = s.size := h.length_sorted
  have hincreasing : Value.Increasing s.sorted.toArray.toList := h.increasing_sorted
  rw [Value.searchSorted_iff hincreasing v 0 s.size (by omega), ← h.among_sorted]
  constructor
  · rintro ⟨i, w, -, -, hw, hwv⟩
    exact ⟨w, Array.mem_toList_iff.mpr (Array.mem_of_getElem? hw), hwv⟩
  · rintro ⟨w, hw, hwv⟩
    obtain ⟨i, hi⟩ := List.mem_iff_getElem?.mp hw
    obtain ⟨hlt, -⟩ := List.getElem?_eq_some_iff.mp hi
    exact ⟨i, w, Nat.zero_le i, by rwa [← h.length_sorted], by simpa using hi, hwv⟩

/-- **Membership** in a valid set is being equal to an element, whatever is known of its order. -/
theorem IsValid.contains_iff (h : s.IsValid) (v : Value) :
    s.contains v = true ↔ v.Among s.elements := by
  unfold contains
  split
  · exact h.searchSorted_iff v
  · exact Value.any_beq_iff

/-! ### Operations -/

lemma isValid_ofDistinct {vs : List Value} (h : Value.Distinct vs) : (ofDistinct vs).IsValid where
  distinct := h
  order := by
    intro ps hps
    cases hps

lemma isValid_empty : empty.IsValid :=
  isValid_ofDistinct List.Pairwise.nil

/-- Working out the increasing order keeps a set valid. -/
lemma IsValid.withOrder (h : s.IsValid) : s.withOrder.IsValid where
  distinct := h.distinct
  order := by
    rintro ps ⟨⟩
    exact h.isOrderOf_positions

/-- The elements of a rearranged set are those of the increasing order, also where it was in order
already. -/
lemma elements_sort (s : ValueSet) : s.sort.elements = s.sorted := by
  unfold sort
  split
  case isTrue hp => rw [sorted_eq, hp]; exact (atPositions_range _).symm
  case isFalse => rfl

/-- Rearranging the elements keeps a set valid. -/
lemma IsValid.sort (h : s.IsValid) : s.sort.IsValid := by
  unfold ValueSet.sort
  split
  case isTrue => exact h.withOrder
  case isFalse =>
    refine ⟨h.increasing_sorted.distinct, ?_⟩
    rintro ps ⟨⟩
    rw [← h.length_sorted]
    exact Value.isOrderOf_range h.increasing_sorted

/-- The elements after adding a value: a value that is there is not added. -/
lemma IsValid.elements_insert (h : s.IsValid) (v : Value) :
    (s.insert v).elements =
      if s.elements.any fun w => w == v then s.elements else s.elements ++ [v] := by
  have hcontains : s.contains v = s.elements.any fun w => w == v := by
    rw [Bool.eq_iff_iff, h.contains_iff, Value.any_beq_iff]
  rw [insert, hcontains]
  split <;> rfl

/-- Adding a value keeps a set valid. -/
lemma IsValid.insert (h : s.IsValid) (v : Value) : (s.insert v).IsValid := by
  unfold ValueSet.insert
  split
  case isTrue => exact h
  case isFalse hv =>
    rw [h.contains_iff] at hv
    refine ⟨List.pairwise_append.mpr ⟨h.distinct, List.pairwise_singleton _ _, ?_⟩, ?_⟩
    · intro w hw u hu
      obtain rfl := List.mem_singleton.mp hu
      exact Bool.eq_false_of_not_eq_true fun heq => hv ⟨w, hw, heq⟩
    · intro ps hps
      cases hps

/-- Adding values keeps a set valid. -/
lemma IsValid.extend (h : s.IsValid) (vs : List Value) : (s.extend vs).IsValid := by
  induction vs generalizing s with
  | nil => exact h
  | cons v vs ih => exact ih (h.insert v)

lemma isValid_ofList (vs : List Value) : (ofList vs).IsValid :=
  isValid_empty.extend vs

lemma IsValid.union (h : s.IsValid) (t : ValueSet) : (s.union t).IsValid :=
  h.extend t.elements

/-- **First occurrences.** If a valid set holds the first occurrences of some values, then with more
values added it holds the first occurrences of all of them. -/
theorem IsValid.elements_extend (h : s.IsValid) {added : List Value}
    (hadded : s.elements = Value.firstOccurrences added) (vs : List Value) :
    (s.extend vs).elements = Value.firstOccurrences (added ++ vs) := by
  induction vs generalizing s added with
  | nil => rwa [List.append_nil]
  | cons v vs ih =>
    have hany : (s.elements.any fun w => w == v) = added.any fun w => w == v := by
      rw [Bool.eq_iff_iff, Value.any_beq_iff, Value.any_beq_iff, hadded,
        Value.among_firstOccurrences]
    have hinsert : (s.insert v).elements = Value.firstOccurrences (added ++ [v]) := by
      rw [h.elements_insert, Value.firstOccurrences_concat, hany, hadded]
    rw [← List.singleton_append, ← List.append_assoc]
    exact ih (h.insert v) hinsert

/-- An element after adding a value was there before or is that value. -/
lemma IsValid.mem_of_mem_insert (h : s.IsValid) {v w : Value} (hw : w ∈ (s.insert v).elements) :
    w ∈ s.elements ∨ w = v := by
  rw [h.elements_insert] at hw
  split at hw
  case isTrue => exact .inl hw
  case isFalse => exact (List.mem_append.mp hw).imp_right List.mem_singleton.mp

/-- An element after adding values was there before or is one of them. -/
lemma IsValid.mem_of_mem_extend (h : s.IsValid) {vs : List Value} {w : Value}
    (hw : w ∈ (s.extend vs).elements) : w ∈ s.elements ∨ w ∈ vs := by
  induction vs generalizing s with
  | nil => exact .inl hw
  | cons v vs ih =>
    rcases ih (h.insert v) hw with hw | hw
    · rcases h.mem_of_mem_insert hw with hw | rfl
      · exact .inl hw
      · exact .inr List.mem_cons_self
    · exact .inr (List.mem_cons_of_mem v hw)

/-- A set made of values has no others. -/
lemma mem_of_mem_ofList {vs : List Value} {w : Value} (hw : w ∈ (ofList vs).elements) : w ∈ vs :=
  (isValid_empty.mem_of_mem_extend hw).resolve_left List.not_mem_nil

/-- The values in a set with values added. -/
lemma IsValid.among_elements_extend (h : s.IsValid) {v : Value} (vs : List Value) :
    v.Among (s.extend vs).elements ↔ v.Among s.elements ∨ v.Among vs := by
  rw [h.elements_extend (Value.firstOccurrences_of_distinct h.distinct).symm,
    Value.among_firstOccurrences, Value.among_append]

/-- The values that a set is made of are in it. -/
lemma among_elements_ofList {vs : List Value} {v : Value} :
    v.Among (ofList vs).elements ↔ v.Among vs := by
  rw [ofList, isValid_empty.among_elements_extend]
  exact or_iff_right fun ⟨_, hw, _⟩ => List.not_mem_nil hw

end ValueSet

end BoundedLogic
