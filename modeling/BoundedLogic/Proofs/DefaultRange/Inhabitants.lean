import BoundedLogic.Proofs.DefaultRange.Ranges

set_option relaxedAutoImplicit false
set_option autoImplicit false

/-!
# Default ranges are bounded types

What values a type has when its numbers, characters and collections are bounded can be said without
enumerating them. A default range has these values and no others, up to equality of values: what is
missing from it is no value of the bounded type, so an obligation that holds over the range holds
over the bounded type.

A range cannot always be made. The types that a type is made of can be visited from left to right,
each after its own parts; the first of them to which there is an objection decides with which error
the making of the range ends, and where there is none it succeeds.

## Main definitions

* `BoundedLogic.CheckerConfig.Inhabits` — the values of a bounded type.
* `BoundedLogic.TypeShape.visited` — the types that a type is made of, in the order in which their
  ranges are made.
* `BoundedLogic.CheckerConfig.objection?` — why a type has no range though its parts have.

## Main results

* `BoundedLogic.CheckerConfig.inhabits_of_mem_defaultRange`,
  `BoundedLogic.CheckerConfig.among_defaultRange` — a range is sound and complete for its type.
* `BoundedLogic.CheckerConfig.failsByObjection_defaultRange` — the error is the first objection.
* `BoundedLogic.CheckerConfig.defaultRange_is_bounded_type` — a default range is its bounded type.
-/

namespace BoundedLogic

namespace CheckerConfig

variable {c : CheckerConfig} {t : TypeShape} {ts : List TypeShape} {range : ValueSet}
  {e : CheckError}

/-! ### Bounded types -/

/-- The value is one of the bounded type. -/
inductive Inhabits (c : CheckerConfig) : TypeShape → Value → Prop
  /-- The truth values. -/
  | bool (b : Bool) : Inhabits c .bool (.bool b)
  /-- The naturals up to the limit. -/
  | nat {i : Int64} (hlo : 0 ≤ i.toInt) (hhi : i.toInt ≤ c.natLimit.toNat) :
    Inhabits c .nat (.int i)
  /-- The naturals from one to the limit, and one itself. -/
  | nat1 {i : Int64} (hlo : 1 ≤ i.toInt) (hhi : i.toInt ≤ max c.natLimit.toNat 1) :
    Inhabits c .nat1 (.int i)
  /-- The integers up to the limit in absolute value. -/
  | int {i : Int64} (hlo : -c.intLimit.toNat ≤ i.toInt) (hhi : i.toInt ≤ c.intLimit.toNat) :
    Inhabits c .int (.int i)
  /-- The characters of the sample. -/
  | char {ch : Char} (h : ch ∈ c.charSample.toList) : Inhabits c .char (.char ch)
  /-- The listed quotes. -/
  | quote {names : List String} {name : String} (h : name ∈ names) :
    Inhabits c (.quotes names) (.quote name)
  /-- The value `nil`, -/
  | nil (t : TypeShape) : Inhabits c (.optional t) .nil
  /-- and the values of the type that is made optional. -/
  | some {t : TypeShape} {v : Value} (h : Inhabits c t v) : Inhabits c (.optional t) v
  /-- The tuples with a value of each part. -/
  | tuple {ts : List TypeShape} {vs : List Value} (h : List.Forall₂ (Inhabits c) ts vs) :
    Inhabits c (.product ts) (.tuple vs)
  /-- The sets of values. -/
  | set {t : TypeShape} {vs : List Value} (hdistinct : Value.Distinct vs)
    (h : ∀ v ∈ vs, Inhabits c t v) : Inhabits c (.setOf t) (.set vs)
  /-- The sequences of values without repetitions. -/
  | seq {t : TypeShape} {vs : List Value} (hdistinct : Value.Distinct vs)
    (h : ∀ v ∈ vs, Inhabits c t v) : Inhabits c (.seqOf t) (.seq vs)

/-! ### Every value of a range is one of the type -/

/-- Items of the ranges of several types are values of these types. -/
lemma inhabits_of_forall₂ {ranges : List ValueSet} {items : List Value}
    (hranges : List.Forall₂ (fun t range => c.defaultRange t = .ok range) ts ranges)
    (hts : ∀ t ∈ ts, ∀ range, c.defaultRange t = .ok range → ∀ v ∈ range.elements, c.Inhabits t v)
    (hitems : List.Forall₂ (fun v (range : ValueSet) => v ∈ range.elements) items ranges) :
    List.Forall₂ c.Inhabits ts items := by
  induction hranges generalizing items with
  | nil =>
    obtain rfl := List.forall₂_nil_right_iff.mp hitems
    exact .nil
  | @cons t range ts ranges hrange _ ih =>
    obtain ⟨v, rest, hv, hrest, rfl⟩ := List.forall₂_cons_right_iff.mp hitems
    obtain ⟨ht, hts⟩ := List.forall_mem_cons.mp hts
    exact .cons (ht range hrange v hv) (ih hts hrest)

/-- **Sound:** the values of a default range are values of the bounded type. -/
theorem inhabits_of_mem_defaultRange (h : c.defaultRange t = .ok range) :
    ∀ v ∈ range.elements, c.Inhabits t v := by
  have hnat := c.natLimit_lt
  have hint := c.intLimit_lt
  induction t using TypeShape.induction generalizing range with
  | bool =>
    obtain rfl := Except.ok.inj h
    exact List.forall_mem_cons.mpr ⟨.bool false, List.forall_mem_singleton.mpr (.bool true)⟩
  | nat =>
    obtain rfl := Except.ok.inj h
    intro v hv
    obtain ⟨i, rfl, hlo, hhi⟩ := (Domain.mem_integersBetween_iff (by omega) (by omega)).mp hv
    exact .nat hlo hhi
  | nat1 =>
    obtain rfl := Except.ok.inj h
    intro v hv
    obtain ⟨i, rfl, hlo, hhi⟩ :=
      (Domain.mem_integersBetween_iff (by omega) (by push_cast; omega)).mp hv
    exact .nat1 hlo (by exact_mod_cast hhi)
  | int =>
    obtain rfl := Except.ok.inj h
    intro v hv
    obtain ⟨i, rfl, hlo, hhi⟩ := (Domain.mem_integersBetween_iff (by omega) (by omega)).mp hv
    exact .int hlo hhi
  | char =>
    obtain rfl := Except.ok.inj h
    intro v hv
    obtain ⟨ch, hch, rfl⟩ := List.mem_map.mp (ValueSet.mem_of_mem_ofList hv)
    exact .char hch
  | quotes names =>
    obtain rfl := Except.ok.inj h
    intro v hv
    obtain ⟨name, hname, rfl⟩ := List.mem_map.mp (ValueSet.mem_of_mem_ofList hv)
    exact .quote hname
  | optional t ih =>
    obtain ⟨inner, hinner, rfl⟩ := defaultRange_optional_eq_ok_iff.mp h
    have hvalid := (wellFormed_of_defaultRange hinner).isValid
    intro v hv
    rcases hvalid.mem_of_mem_insert hv with hv | rfl
    · exact .some (ih hinner v hv)
    · exact .nil t
  | product ts ih =>
    obtain ⟨ranges, hranges, rfl⟩ := defaultRange_product_eq_ok_iff.mp h
    refine List.forall_mem_map.mpr fun items hitems => .tuple ?_
    exact inhabits_of_forall₂ hranges (fun t ht range => ih t ht) (mem_tuples_iff.mp hitems)
  | setOf t ih =>
    obtain ⟨inner, hinner, -, rfl⟩ := defaultRange_setOf_eq_ok_iff.mp h
    refine List.forall_mem_map.mpr fun part hpart => ?_
    have hsublist := ValueSet.sublist_of_mem_pickedSubsets hpart
    have hdistinct := (wellFormed_of_defaultRange hinner).isValid.distinct
    exact .set (hdistinct.sublist hsublist) fun v hv => ih hinner v (hsublist.subset hv)
  | seqOf t ih =>
    obtain ⟨inner, hinner, -, rfl⟩ := defaultRange_seqOf_eq_ok_iff.mp h
    refine List.forall_mem_map.mpr fun items hitems => ?_
    obtain ⟨part, hpart, hitems⟩ := List.mem_flatMap.mp hitems
    have hvalid := (wellFormed_of_defaultRange hinner).isValid
    have hdistinct : Value.Distinct part :=
      hvalid.distinct.sublist (ValueSet.sublist_of_mem_pickedSubsets hpart)
    exact .seq (hdistinct.of_perm (mem_orderings_iff.mp hitems).symm) fun v hv =>
      ih hinner v (ValueSet.subset_of_mem_orderings hpart hitems hv)
  | named name => cases h

/-! ### Every value of a type is one of its range -/

/-- An integer between the bounds of a range is in it. -/
lemma among_integersBetween {lo hi : Int} (hlo : -2 ^ 32 ≤ lo) (hhi : hi < 2 ^ 32) {i : Int64}
    (hloi : lo ≤ i.toInt) (hihi : i.toInt ≤ hi) :
    (Value.int i).Among (Domain.integersBetween lo hi) := by
  have hmem := (Domain.mem_integersBetween_iff (v := .int i) (by omega) (by omega)).mpr
    ⟨i, rfl, hloi, hihi⟩
  exact ⟨_, hmem, BEq.rfl⟩

/-- Distinct values that are among those of a range are the keys of one of its subsets. -/
lemma exists_pickedSubset_perm (hrange : range.IsValid) {vs : List Value}
    (hdistinct : Value.Distinct vs) (h : ∀ v ∈ vs, v.Among range.elements) :
    ∃ part ∈ range.pickedSubsets, (vs.map Value.sortKey).Perm (part.map Value.sortKey) := by
  have hvs := ValueSet.isValid_ofDistinct hdistinct
  have hsubset : (ValueSet.ofDistinct vs).isSubset range = true := by
    rw [hvs.isSubset_iff hrange]
    exact fun v hv => (hrange.contains_iff v).mpr (h v hv)
  obtain ⟨k, hk, hbeq⟩ := (hvs.isSubset_iff_exists_pickBits hrange).mp hsubset
  refine ⟨_, ValueSet.mem_pickedSubsets_iff.mpr ⟨k, hk, rfl⟩, ?_⟩
  exact (hvs.beq_iff_perm (hrange.ofDistinct_pickBits k)).mp hbeq

/-- Values of several types have the keys of items of their ranges. -/
lemma exists_items_of_forall₂ {ranges : List ValueSet} {vs : List Value}
    (hranges : List.Forall₂ (fun t range => c.defaultRange t = .ok range) ts ranges)
    (hts : ∀ t ∈ ts, ∀ range, c.defaultRange t = .ok range →
      ∀ v, c.Inhabits t v → v.Among range.elements)
    (hvs : List.Forall₂ c.Inhabits ts vs) :
    ∃ items, List.Forall₂ (fun v (range : ValueSet) => v ∈ range.elements) items ranges ∧
      items.map Value.sortKey = vs.map Value.sortKey := by
  induction hranges generalizing vs with
  | nil =>
    obtain rfl := List.forall₂_nil_left_iff.mp hvs
    exact ⟨[], .nil, rfl⟩
  | @cons t range ts ranges hrange _ ih =>
    obtain ⟨v, rest, hv, hrest, rfl⟩ := List.forall₂_cons_left_iff.mp hvs
    obtain ⟨ht, hts⟩ := List.forall_mem_cons.mp hts
    obtain ⟨w, hw, hwv⟩ := ht range hrange v hv
    obtain ⟨items, hitems, hkeys⟩ := ih hts hrest
    exact ⟨w :: items, .cons hw hitems, congrArg₂ List.cons (Value.beq_iff.mp hwv) hkeys⟩

/-- **Complete:** every value of the bounded type is equal to one of the default range.

**Proof sketch.** Induction on the type. The elements of a set have the keys of some subset of the
range inside, and so do the items of a sequence without repetitions; as lists with the same keys are
ordered alike, the sequence then has the keys of an ordering of that subset. -/
theorem among_defaultRange (h : c.defaultRange t = .ok range) {v : Value}
    (hv : c.Inhabits t v) : v.Among range.elements := by
  have hnat := c.natLimit_lt
  have hint := c.intLimit_lt
  induction t using TypeShape.induction generalizing range v with
  | bool =>
    obtain rfl := Except.ok.inj h
    cases hv with
    | bool b =>
      refine ⟨.bool b, ?_, BEq.rfl⟩
      cases b
      · exact List.mem_cons_self
      · exact List.mem_cons_of_mem _ List.mem_cons_self
  | nat =>
    obtain rfl := Except.ok.inj h
    cases hv with
    | nat hlo hhi => exact among_integersBetween (by omega) hnat hlo hhi
  | nat1 =>
    obtain rfl := Except.ok.inj h
    cases hv with
    | nat1 hlo hhi =>
      exact among_integersBetween (by omega) (by push_cast; omega) hlo (by exact_mod_cast hhi)
  | int =>
    obtain rfl := Except.ok.inj h
    cases hv with
    | int hlo hhi => exact among_integersBetween (by omega) hint hlo hhi
  | char =>
    obtain rfl := Except.ok.inj h
    cases hv with
    | char hch => exact ValueSet.among_elements_ofList.mpr ⟨_, List.mem_map_of_mem hch, BEq.rfl⟩
  | quotes names =>
    obtain rfl := Except.ok.inj h
    cases hv with
    | quote hname =>
      exact ValueSet.among_elements_ofList.mpr ⟨_, List.mem_map_of_mem hname, BEq.rfl⟩
  | optional t ih =>
    obtain ⟨inner, hinner, rfl⟩ := defaultRange_optional_eq_ok_iff.mp h
    have hvalid := (wellFormed_of_defaultRange hinner).isValid
    refine (hvalid.among_elements_extend [.nil]).mpr ?_
    cases hv with
    | nil => exact .inr ⟨_, List.mem_singleton_self _, BEq.rfl⟩
    | some hv => exact .inl (ih hinner hv)
  | product ts ih =>
    obtain ⟨ranges, hranges, rfl⟩ := defaultRange_product_eq_ok_iff.mp h
    cases hv with
    | tuple hvs =>
      obtain ⟨items, hitems, hkeys⟩ :=
        exists_items_of_forall₂ hranges (fun t ht range hrange v hv => ih t ht hrange hv) hvs
      exact ⟨.tuple items, List.mem_map_of_mem (mem_tuples_iff.mpr hitems),
        Value.tuple_beq_tuple_iff.mpr hkeys⟩
  | setOf t ih =>
    obtain ⟨inner, hinner, -, rfl⟩ := defaultRange_setOf_eq_ok_iff.mp h
    have hvalid := (wellFormed_of_defaultRange hinner).isValid
    cases hv with
    | set hdistinct hvs =>
      obtain ⟨part, hpart, hperm⟩ :=
        exists_pickedSubset_perm hvalid hdistinct fun v hv => ih hinner (hvs v hv)
      exact ⟨.set part, List.mem_map_of_mem hpart, Value.set_beq_set_iff.mpr hperm.symm⟩
  | seqOf t ih =>
    obtain ⟨inner, hinner, -, rfl⟩ := defaultRange_seqOf_eq_ok_iff.mp h
    have hvalid := (wellFormed_of_defaultRange hinner).isValid
    cases hv with
    | @seq _ vs hdistinct hvs =>
      obtain ⟨part, hpart, hperm⟩ :=
        exists_pickedSubset_perm hvalid hdistinct fun v hv => ih hinner (hvs v hv)
      -- keys, and not the items, are what is ordered alike
      have hordering : vs.map Value.sortKey ∈ (orderings part).map (List.map Value.sortKey) := by
        rw [← orderings_map]
        exact mem_orderings_iff.mpr hperm
      obtain ⟨items, hitems, hkeys⟩ := List.mem_map.mp hordering
      exact ⟨.seq items, List.mem_map_of_mem (List.mem_flatMap.mpr ⟨part, hpart, hitems⟩),
        Value.seq_beq_seq_iff.mpr hkeys⟩
  | named name => cases h

end CheckerConfig

/-! ### The first objection -/

namespace TypeShape

mutual

/-- The types that a type is made of, each after its own parts, from left to right; the type itself
comes last. -/
def visited : TypeShape → List TypeShape
  | .bool => [.bool]
  | .nat => [.nat]
  | .nat1 => [.nat1]
  | .int => [.int]
  | .char => [.char]
  | .quotes names => [.quotes names]
  | .optional t => t.visited ++ [.optional t]
  | .product ts => visitedEach ts ++ [.product ts]
  | .setOf t => t.visited ++ [.setOf t]
  | .seqOf t => t.visited ++ [.seqOf t]
  | .named name => [.named name]

/-- The same for a list of types. -/
def visitedEach : List TypeShape → List TypeShape
  | [] => []
  | t :: ts => t.visited ++ visitedEach ts

end

end TypeShape

namespace CheckerConfig

variable {c : CheckerConfig} {t : TypeShape} {ts : List TypeShape} {e : CheckError}

/-- A range of a type has too many collections. -/
def overflow? (c : CheckerConfig) (t : TypeShape) : Option CheckError :=
  match c.defaultRange t with
  | .ok range =>
    if c.IsTooLarge range then
      some (.enumeration (.capacityExceeded range.size c.collectionLimit))
    else none
  | .error _ => none

/-- Why a type has no range of its own: nothing is known of a type but its name, or the range inside
a collection is made, but has more than `collectionLimit` elements or at least sixty-four. -/
def objection? (c : CheckerConfig) : TypeShape → Option CheckError
  | .named name => some (.noDefaultRange name)
  | .setOf t => c.overflow? t
  | .seqOf t => c.overflow? t
  | _ => none

lemma overflow?_eq_some_iff : c.overflow? t = some e ↔
    ∃ range, c.defaultRange t = .ok range ∧ c.rangeSubsets range = .error e := by
  rw [overflow?]
  cases c.defaultRange t with
  | error e' => simp
  | ok range => simp [rangeSubsets_eq_error_iff]

/-- The errors are the first objections to the types that are visited. -/
def FailsByObjection (c : CheckerConfig) (visited : List TypeShape) {α : Type}
    (x : Except CheckError α) : Prop :=
  ∀ e, x = .error e ↔ visited.findSome? c.objection? = some e

lemma FailsByObjection.eq_none_iff {α : Type} {x : Except CheckError α} {vs : List TypeShape}
    (h : c.FailsByObjection vs x) : vs.findSome? c.objection? = none ↔ ∃ a, x = .ok a := by
  rw [FailsByObjection] at h
  rw [Option.eq_none_iff_forall_ne_some]
  simp only [ne_eq, ← h]
  cases x <;> simp

/-- A computation that goes on with the types that are visited after others. -/
lemma FailsByObjection.bind {α β : Type} {x : Except CheckError α} {f : α → Except CheckError β}
    {us vs : List TypeShape} (hx : c.FailsByObjection us x)
    (hf : ∀ a, x = .ok a → c.FailsByObjection vs (f a)) :
    c.FailsByObjection (us ++ vs) (x >>= f) := by
  intro e
  rw [except_bind_eq_error_iff, List.findSome?_append, Option.or_eq_some_iff, ← hx e,
    hx.eq_none_iff]
  refine or_congr_right ⟨?_, ?_⟩
  · rintro ⟨a, ha, hfa⟩
    exact ⟨⟨a, ha⟩, (hf a ha e).mp hfa⟩
  · rintro ⟨⟨a, ha⟩, he⟩
    exact ⟨a, ha, (hf a ha e).mpr he⟩

/-- A computation that succeeds, when there is no objection. -/
lemma failsByObjection_ok {α : Type} (a : α) {vs : List TypeShape}
    (h : vs.findSome? c.objection? = none) : c.FailsByObjection vs (.ok a) := by
  intro e
  rw [h]
  simp

/-- The collections of a range are enumerated when there is no objection to their type. -/
lemma failsByObjection_rangeSubsets {range : ValueSet} (hrange : c.defaultRange t = .ok range)
    {collection : TypeShape} (h : c.objection? collection = c.overflow? t) {α : Type}
    (f : List (List Value) → α) :
    c.FailsByObjection [collection] (c.rangeSubsets range >>= fun parts => pure (f parts)) := by
  intro e
  have hfirst : [collection].findSome? c.objection? = c.overflow? t := by
    rw [List.findSome?_singleton, h]
  rw [hfirst, overflow?_eq_some_iff, except_bind_eq_error_iff, hrange]
  simp [pure, Except.pure]

lemma failsByObjection_productTuples
    (h : ∀ t ∈ ts, c.FailsByObjection t.visited (c.defaultRange t)) (tuples : List (List Value)) :
    c.FailsByObjection (TypeShape.visitedEach ts) (c.productTuples tuples ts) := by
  induction ts generalizing tuples with
  | nil => exact failsByObjection_ok tuples rfl
  | cons t ts ih =>
    obtain ⟨ht, hts⟩ := List.forall_mem_cons.mp h
    rw [productTuples, TypeShape.visitedEach]
    exact ht.bind fun range _ => ih hts _

/-- **The error** with which the making of a range ends is the first objection.

**Proof sketch.** Induction on the type. The ranges of the parts are made first; the type itself is
objected to only where that has succeeded. -/
theorem failsByObjection_defaultRange (c : CheckerConfig) (t : TypeShape) :
    c.FailsByObjection t.visited (c.defaultRange t) := by
  induction t using TypeShape.induction with
  | bool | nat | nat1 | int | char | quotes names => exact failsByObjection_ok _ rfl
  | optional t ih => exact ih.bind fun range _ => failsByObjection_ok _ rfl
  | product ts ih =>
    exact (failsByObjection_productTuples ih [[]]).bind fun tuples _ => failsByObjection_ok _ rfl
  | setOf t ih =>
    exact ih.bind fun range hrange => failsByObjection_rangeSubsets hrange rfl _
  | seqOf t ih =>
    exact ih.bind fun range hrange => failsByObjection_rangeSubsets hrange rfl _
  | named name =>
    intro e
    simp [defaultRange, TypeShape.visited, objection?]

/-! ### Ranges and types -/

/-- **A default range is its bounded type**, for every type and every configuration:

* if it can be made, it contains exactly the values that are equal to one of the bounded type;
* if it cannot, the error is the first objection to a type that it is made of, when these are
  visited from left to right and each after its own parts; where there is no objection, it can be
  made. -/
theorem defaultRange_is_bounded_type (c : CheckerConfig) (t : TypeShape) :
    (∀ range, c.defaultRange t = .ok range → ∀ v, range.contains v = true ↔
      ∃ w, c.Inhabits t w ∧ (w == v) = true) ∧
    ((∃ range, c.defaultRange t = .ok range) ↔ t.visited.findSome? c.objection? = none) ∧
    ∀ e, c.defaultRange t = .error e ↔ t.visited.findSome? c.objection? = some e := by
  have hfails := failsByObjection_defaultRange c t
  refine ⟨fun range h v => ?_, hfails.eq_none_iff.symm, hfails⟩
  rw [(wellFormed_of_defaultRange h).isValid.contains_iff]
  constructor
  · rintro ⟨w, hw, hwv⟩
    exact ⟨w, inhabits_of_mem_defaultRange h w hw, hwv⟩
  · rintro ⟨w, hw, hwv⟩
    obtain ⟨u, hu, huw⟩ := among_defaultRange h hw
    exact ⟨u, hu, BEq.trans huw hwv⟩

end CheckerConfig

end BoundedLogic
