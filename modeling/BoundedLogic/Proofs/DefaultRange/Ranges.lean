import BoundedLogic.Proofs.Enumeration.Distinct
import BoundedLogic.Proofs.Value.WellFormed
import Mathlib.Data.List.Forall2

set_option relaxedAutoImplicit false
set_option autoImplicit false

/-!
# Default ranges are sets

The default range of a type is made from the ranges of its parts. For every type there is one lemma
that says from which, and whether the range can be made at all; tuples begun with the first parts of
a product and continued with the next ones are, in the end, the tuples of values of all parts.

The values of a range are put into it without being compared with each other. By induction on the
type they are well-formed and pairwise unequal, as each kind of enumeration keeps them so.

## Main results

* `BoundedLogic.TypeShape.induction` — induction on types, with all parts of a product at once.
* `BoundedLogic.CheckerConfig.defaultRange_product_eq_ok_iff` and the lemmas beside it — the ranges
  that a range is made from.
* `BoundedLogic.CheckerConfig.wellFormed_of_defaultRange` — default ranges are valid sets of
  well-formed values.
-/

namespace BoundedLogic

/-- Induction on the shape of a type. The parts of a product have the property each. -/
@[elab_as_elim]
theorem TypeShape.induction {motive : TypeShape → Prop} (bool : motive .bool) (nat : motive .nat)
    (nat1 : motive .nat1) (int : motive .int) (char : motive .char)
    (quotes : ∀ names, motive (.quotes names)) (optional : ∀ t, motive t → motive (.optional t))
    (product : ∀ ts, (∀ t ∈ ts, motive t) → motive (.product ts))
    (setOf : ∀ t, motive t → motive (.setOf t)) (seqOf : ∀ t, motive t → motive (.seqOf t))
    (named : ∀ name, motive (.named name)) (t : TypeShape) : motive t :=
  @TypeShape.rec motive (fun ts => ∀ t ∈ ts, motive t) bool nat nat1 int char quotes optional
    product setOf seqOf named (fun t ht => by cases ht)
    (fun _ _ ht hts => List.forall_mem_cons.mpr ⟨ht, hts⟩) t

/-- A sequence of two computations succeeds when both do. -/
lemma except_bind_eq_ok_iff {ε α β : Type} {x : Except ε α} {f : α → Except ε β} {b : β} :
    x >>= f = .ok b ↔ ∃ a, x = .ok a ∧ f a = .ok b := by
  cases x <;> simp [bind, Except.bind]

/-- It fails when the first one does, or the second one after it. -/
lemma except_bind_eq_error_iff {ε α β : Type} {x : Except ε α} {f : α → Except ε β} {e : ε} :
    x >>= f = .error e ↔ x = .error e ∨ ∃ a, x = .ok a ∧ f a = .error e := by
  cases x <;> simp [bind, Except.bind]

/-- What is related to a list item by item has each of its items for one of the list. -/
lemma exists_of_mem_of_forall₂ {α β : Type} {R : α → β → Prop} {as : List α} {bs : List β}
    (h : List.Forall₂ R as bs) {b : β} (hb : b ∈ bs) : ∃ a ∈ as, R a b := by
  induction h with
  | nil => cases hb
  | cons hab _ ih =>
    rcases List.mem_cons.mp hb with rfl | hb
    · exact ⟨_, List.mem_cons_self, hab⟩
    · obtain ⟨a, ha, hab⟩ := ih hb
      exact ⟨a, List.mem_cons_of_mem _ ha, hab⟩

namespace CheckerConfig

variable {c : CheckerConfig} {t : TypeShape} {ts : List TypeShape} {range : ValueSet}
  {e : CheckError}

/-! ### From which ranges a range is made -/

/-- The collections of a range are too many to be enumerated. -/
def IsTooLarge (c : CheckerConfig) (range : ValueSet) : Prop :=
  c.collectionLimit < range.size ∨ 64 ≤ range.size

instance (c : CheckerConfig) (range : ValueSet) : Decidable (c.IsTooLarge range) :=
  inferInstanceAs (Decidable (_ ∨ _))

/-- The subsets of a range are enumerated, or there are too many of them. -/
lemma rangeSubsets_eq (c : CheckerConfig) (range : ValueSet) :
    c.rangeSubsets range = if c.IsTooLarge range
      then .error (.enumeration (.capacityExceeded range.size c.collectionLimit))
      else .ok range.pickedSubsets := by
  rw [rangeSubsets, subsets_never]
  by_cases h : c.IsTooLarge range
  · have hlimit : c.collectionLimit < range.elements.length ∨ wordBits ≤ range.elements.length := h
    rw [if_pos h, if_pos hlimit]
    rfl
  · have hlimit : ¬(c.collectionLimit < range.elements.length ∨
      wordBits ≤ range.elements.length) := h
    rw [if_neg h, if_neg hlimit]
    rfl

lemma rangeSubsets_eq_ok_iff {parts : List (List Value)} :
    c.rangeSubsets range = .ok parts ↔ ¬ c.IsTooLarge range ∧ range.pickedSubsets = parts := by
  rw [rangeSubsets_eq]
  by_cases h : c.IsTooLarge range <;> simp [h]

lemma rangeSubsets_eq_error_iff :
    c.rangeSubsets range = .error e ↔ c.IsTooLarge range ∧
      .enumeration (.capacityExceeded range.size c.collectionLimit) = e := by
  rw [rangeSubsets_eq]
  by_cases h : c.IsTooLarge range <;> simp [h]

/-- The range of an optional type. -/
lemma defaultRange_optional_eq_ok_iff :
    c.defaultRange (.optional t) = .ok range ↔
      ∃ inner, c.defaultRange t = .ok inner ∧ inner.insert .nil = range := by
  rw [defaultRange, except_bind_eq_ok_iff]
  simp only [pure, Except.pure, Except.ok.injEq]

/-- The range of a type of sets. -/
lemma defaultRange_setOf_eq_ok_iff :
    c.defaultRange (.setOf t) = .ok range ↔
      ∃ inner, c.defaultRange t = .ok inner ∧ ¬ c.IsTooLarge inner ∧
        .ofDistinct (inner.pickedSubsets.map .set) = range := by
  rw [defaultRange, except_bind_eq_ok_iff]
  simp only [except_bind_eq_ok_iff, rangeSubsets_eq_ok_iff, pure, Except.pure, Except.ok.injEq,
    and_assoc, exists_and_left, exists_eq_left']

/-- The range of a type of sequences. -/
lemma defaultRange_seqOf_eq_ok_iff :
    c.defaultRange (.seqOf t) = .ok range ↔
      ∃ inner, c.defaultRange t = .ok inner ∧ ¬ c.IsTooLarge inner ∧
        .ofDistinct ((inner.pickedSubsets.flatMap orderings).map .seq) = range := by
  rw [defaultRange, except_bind_eq_ok_iff]
  simp only [except_bind_eq_ok_iff, rangeSubsets_eq_ok_iff, pure, Except.pure, Except.ok.injEq,
    and_assoc, exists_and_left, exists_eq_left']

/-- Tuples are continued by the range of one type after another. -/
lemma productTuples_eq_ok_iff {tuples tuples' : List (List Value)} :
    c.productTuples tuples ts = .ok tuples' ↔
      ∃ ranges, List.Forall₂ (fun t range => c.defaultRange t = .ok range) ts ranges ∧
        ranges.foldl extendTuples tuples = tuples' := by
  induction ts generalizing tuples with
  | nil => simp [productTuples]
  | cons t ts ih =>
    rw [productTuples, except_bind_eq_ok_iff]
    constructor
    · rintro ⟨range, hrange, htuples⟩
      obtain ⟨ranges, hranges, rfl⟩ := ih.mp htuples
      exact ⟨range :: ranges, .cons hrange hranges, rfl⟩
    · rintro ⟨ranges, hranges, rfl⟩
      obtain ⟨range, rest, hrange, hrest, rfl⟩ := List.forall₂_cons_left_iff.mp hranges
      exact ⟨range, hrange, ih.mpr ⟨rest, hrest, rfl⟩⟩

/-- The range of a product. -/
lemma defaultRange_product_eq_ok_iff :
    c.defaultRange (.product ts) = .ok range ↔
      ∃ ranges, List.Forall₂ (fun t range => c.defaultRange t = .ok range) ts ranges ∧
        .ofDistinct ((ranges.foldl extendTuples [[]]).map .tuple) = range := by
  rw [defaultRange, except_bind_eq_ok_iff]
  simp only [productTuples_eq_ok_iff, pure, Except.pure, Except.ok.injEq]
  constructor
  · rintro ⟨tuples, ⟨ranges, hranges, rfl⟩, rfl⟩
    exact ⟨ranges, hranges, rfl⟩
  · rintro ⟨ranges, hranges, rfl⟩
    exact ⟨_, ⟨ranges, hranges, rfl⟩, rfl⟩

/-! ### Tuples -/

/-- The tuples in the end are those begun before, continued by a value of each range. -/
lemma mem_foldl_extendTuples_iff {ranges : List ValueSet} {tuples : List (List Value)}
    {items : List Value} :
    items ∈ ranges.foldl extendTuples tuples ↔ ∃ front ∈ tuples, ∃ rest,
      List.Forall₂ (fun v (range : ValueSet) => v ∈ range.elements) rest ranges ∧
        front ++ rest = items := by
  induction ranges generalizing tuples with
  | nil => simp
  | cons range ranges ih =>
    rw [List.foldl_cons, ih]
    constructor
    · rintro ⟨front, hfront, rest, hrest, rfl⟩
      obtain ⟨begun, hbegun, hmap⟩ := List.mem_flatMap.mp hfront
      obtain ⟨v, hv, rfl⟩ := List.mem_map.mp hmap
      exact ⟨begun, hbegun, v :: rest, .cons hv hrest, by simp⟩
    · rintro ⟨begun, hbegun, rest, hrest, rfl⟩
      obtain ⟨v, rest, hv, htail, rfl⟩ := List.forall₂_cons_right_iff.mp hrest
      refine ⟨begun ++ [v], ?_, rest, htail, by simp⟩
      exact List.mem_flatMap.mpr ⟨begun, hbegun, List.mem_map.mpr ⟨v, hv, rfl⟩⟩

/-- The tuples of a product have a value of each range. -/
lemma mem_tuples_iff {ranges : List ValueSet} {items : List Value} :
    items ∈ ranges.foldl extendTuples [[]] ↔
      List.Forall₂ (fun v (range : ValueSet) => v ∈ range.elements) items ranges := by
  simp [mem_foldl_extendTuples_iff]

/-- The tuples of a product of valid ranges are told apart by the keys of their items. -/
lemma nodup_foldl_extendTuples {ranges : List ValueSet} (hranges : ∀ r ∈ ranges, r.IsValid)
    {tuples : List (List Value)} (htuples : (tuples.map (List.map Value.sortKey)).Nodup) :
    ((ranges.foldl extendTuples tuples).map (List.map Value.sortKey)).Nodup := by
  induction ranges generalizing tuples with
  | nil => exact htuples
  | cons range ranges ih =>
    obtain ⟨hrange, hranges⟩ := List.forall_mem_cons.mp hranges
    exact ih hranges (nodup_extendTuples htuples hrange)

/-! ### Every range is a set -/

/-- The limits are numbers of 32 bits, so the integers between them have 64. -/
lemma natLimit_lt (c : CheckerConfig) : (c.natLimit.toNat : Int) < 2 ^ 32 := by
  exact_mod_cast c.natLimit.toNat_lt

lemma intLimit_lt (c : CheckerConfig) : (c.intLimit.toNat : Int) < 2 ^ 32 := by
  exact_mod_cast c.intLimit.toNat_lt

/-- A range of integers, of 32 bits up to the sign. -/
lemma wellFormed_integersBetween {lo hi : Int} (hlo : -2 ^ 32 ≤ lo) (hhi : hi < 2 ^ 32) :
    (Value.set (Domain.integersBetween lo hi)).WellFormed := by
  refine Value.wellFormed_set_iff.mpr
    ⟨Domain.distinct_integersBetween (by omega) (by omega), fun v hv => ?_⟩
  obtain ⟨i, rfl, -⟩ := (Domain.mem_integersBetween_iff (by omega) (by omega)).mp hv
  exact Value.wellFormed_int i

/-- The tuples of values of well-formed ranges. -/
lemma wellFormed_tuples {ranges : List ValueSet} (h : ∀ r ∈ ranges, r.WellFormed) :
    (ValueSet.ofDistinct ((ranges.foldl extendTuples [[]]).map .tuple)).WellFormed := by
  constructor
  · refine ValueSet.isValid_ofDistinct (Value.distinct_map_tuple_iff.mpr ?_)
    exact nodup_foldl_extendTuples (fun r hr => (h r hr).isValid) (List.nodup_singleton _)
  · refine List.forall_mem_map.mpr fun items hitems => Value.wellFormed_tuple_iff.mpr ?_
    have hforall := (mem_tuples_iff.mp hitems).flip
    intro v hv
    obtain ⟨r, hr, hvr⟩ := exists_of_mem_of_forall₂ hforall hv
    exact (h r hr).elements v hvr

/-- **Default ranges** are valid sets of well-formed values.

**Proof sketch.** Induction on the type. Integers, tuples, subsets and orderings are pairwise
unequal as they are enumerated; characters, quotes and `nil` are added one by one. -/
theorem wellFormed_of_defaultRange (h : c.defaultRange t = .ok range) : range.WellFormed := by
  have hnat := c.natLimit_lt
  have hint := c.intLimit_lt
  induction t using TypeShape.induction generalizing range with
  | bool =>
    obtain rfl := Except.ok.inj h
    refine ValueSet.wellFormed_ofDistinct_iff.mpr (Value.wellFormed_set_iff.mpr ⟨?_, by simp⟩)
    rw [Value.Distinct]
    decide +kernel
  | nat =>
    obtain rfl := Except.ok.inj h
    exact ValueSet.wellFormed_ofDistinct_iff.mpr (wellFormed_integersBetween (by omega) hnat)
  | nat1 =>
    obtain rfl := Except.ok.inj h
    exact ValueSet.wellFormed_ofDistinct_iff.mpr
      (wellFormed_integersBetween (by omega) (by push_cast; omega))
  | int =>
    obtain rfl := Except.ok.inj h
    exact ValueSet.wellFormed_ofDistinct_iff.mpr (wellFormed_integersBetween (by omega) hint)
  | char =>
    obtain rfl := Except.ok.inj h
    exact ValueSet.wellFormed_ofList (List.forall_mem_map.mpr fun ch _ => Value.wellFormed_char ch)
  | quotes names =>
    obtain rfl := Except.ok.inj h
    exact ValueSet.wellFormed_ofList (List.forall_mem_map.mpr fun n _ => Value.wellFormed_quote n)
  | optional t ih =>
    obtain ⟨inner, hinner, rfl⟩ := defaultRange_optional_eq_ok_iff.mp h
    exact (ih hinner).insert Value.wellFormed_nil
  | product ts ih =>
    obtain ⟨ranges, hranges, rfl⟩ := defaultRange_product_eq_ok_iff.mp h
    refine wellFormed_tuples fun r hr => ?_
    obtain ⟨t, ht, hrange⟩ := exists_of_mem_of_forall₂ hranges hr
    exact ih t ht hrange
  | setOf t ih =>
    obtain ⟨inner, hinner, -, rfl⟩ := defaultRange_setOf_eq_ok_iff.mp h
    exact (ih hinner).subsets
  | seqOf t ih =>
    obtain ⟨inner, hinner, -, rfl⟩ := defaultRange_seqOf_eq_ok_iff.mp h
    exact (ih hinner).orderings
  | named name => cases h

end CheckerConfig

end BoundedLogic
