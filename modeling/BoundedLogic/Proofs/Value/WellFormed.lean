import BoundedLogic.Proofs.Scope.Agreement
import BoundedLogic.Proofs.ValueSet.Validity
import BoundedLogic.Scope.Context
import BoundedLogic.Value.Map
import Mathlib.Logic.Relation

set_option relaxedAutoImplicit false
set_option autoImplicit false

/-!
# Well-formed values

Any list can be put into a value as the elements of a set or as the entries of a map, but the
operations on sets and maps only mean something where the elements are pairwise unequal and the keys
increase. A value is well-formed if this holds of every set and every map in it, at any depth; that
includes the keys of maps and what tokens wrap.

## Main definitions

* `BoundedLogic.Value.parts` — the values that a value is made of.
* `BoundedLogic.Value.WellFormed` — all sets and maps in a value are sets and maps.
* `BoundedLogic.Named.WellFormed`, `BoundedLogic.Context.WellFormed` — the same for the values that
  names have.
* `BoundedLogic.ValueSet.WellFormed` — a valid set of well-formed values.

## Main results

* `BoundedLogic.Value.wellFormed_iff_forall_inside` — what well-formed says of the values inside.
* `BoundedLogic.Match.wellFormed_of_toFrame?` — the frame of a match of well-formed values.
-/

namespace BoundedLogic

namespace Value

/-- The values that a value is made of, keys included. -/
def parts : Value → List Value
  | .token v => [v]
  | .tuple vs => vs
  | .record _ fs => fs.map Prod.snd
  | .set vs => vs
  | .seq vs => vs
  | .map es => es.map Prod.fst ++ es.map Prod.snd
  | _ => []

/-- The elements of a set are pairwise unequal, and the keys of a map increase. Values of other
kinds are as they may be. -/
def IsOrderly : Value → Prop
  | .set vs => Distinct vs
  | .map es => Increasing (es.map Prod.fst)
  | _ => True

/-- The value is orderly, and so are the values that it is made of, at any depth. -/
inductive WellFormed : Value → Prop
  | intro {v : Value} (orderly : v.IsOrderly) (parts : ∀ w ∈ v.parts, w.WellFormed) : v.WellFormed

lemma wellFormed_iff {v : Value} : v.WellFormed ↔ v.IsOrderly ∧ ∀ w ∈ v.parts, w.WellFormed := by
  constructor
  · rintro ⟨horderly, hparts⟩
    exact ⟨horderly, hparts⟩
  · rintro ⟨horderly, hparts⟩
    exact .intro horderly hparts

lemma WellFormed.of_mem_parts {v w : Value} (h : v.WellFormed) (hw : w ∈ v.parts) :
    w.WellFormed :=
  (wellFormed_iff.mp h).2 w hw

/-! ### Values inside a value -/

/-- A part is smaller than the whole. -/
lemma sizeOf_lt_of_mem_parts {v w : Value} (h : w ∈ v.parts) : sizeOf w < sizeOf v := by
  cases v with
  | token u =>
    obtain rfl := List.mem_singleton.mp h
    simp
  | tuple vs | set vs | seq vs =>
    have hw := List.sizeOf_lt_of_mem (show w ∈ vs from h)
    simp only [tuple.sizeOf_spec, set.sizeOf_spec, seq.sizeOf_spec]
    omega
  | record n fs =>
    obtain ⟨⟨m, u⟩, hf, rfl⟩ := List.mem_map.mp h
    have hfield := List.sizeOf_lt_of_mem hf
    simp only [Prod.mk.sizeOf_spec, record.sizeOf_spec] at hfield ⊢
    omega
  | map es =>
    rcases List.mem_append.mp h with h | h
    all_goals
      obtain ⟨⟨k, u⟩, he, rfl⟩ := List.mem_map.mp h
      have hentry := List.sizeOf_lt_of_mem he
      simp only [Prod.mk.sizeOf_spec, map.sizeOf_spec] at hentry ⊢
      omega
  | _ => cases h

/-- The first value is the second one or stands in it, at any depth. -/
def IsInside (w v : Value) : Prop :=
  Relation.ReflTransGen (fun u u' : Value => u' ∈ u.parts) v w

lemma WellFormed.of_isInside {v w : Value} (h : v.WellFormed) (hw : w.IsInside v) :
    w.WellFormed := by
  induction hw with
  | refl => exact h
  | tail _ hpart ih => exact ih.of_mem_parts hpart

/-- **Well-formed** is a value if every set in it, at any depth, has pairwise unequal elements, and
every map increasing keys.

**Proof sketch.** By induction on the size of the value, as its parts are smaller. -/
theorem wellFormed_iff_forall_inside {v : Value} :
    v.WellFormed ↔ ∀ w : Value, w.IsInside v → w.IsOrderly := by
  constructor
  · intro h w hw
    exact (wellFormed_iff.mp (h.of_isInside hw)).1
  · intro h
    induction hn : sizeOf v using Nat.strong_induction_on generalizing v with
    | _ n ih =>
      subst hn
      refine .intro (h v .refl) fun w hw => ?_
      exact ih _ (sizeOf_lt_of_mem_parts hw) (fun u hu => h u (.head hw hu)) rfl

/-! ### Values of the kinds -/

lemma wellFormed_of_parts_eq_nil {v : Value} (hv : v.IsOrderly) (hparts : v.parts = []) :
    v.WellFormed :=
  .intro hv fun w hw => by
    rw [hparts] at hw
    cases hw

@[simp] lemma wellFormed_nil : Value.nil.WellFormed := wellFormed_of_parts_eq_nil trivial rfl

@[simp] lemma wellFormed_bool (b : Bool) : (Value.bool b).WellFormed :=
  wellFormed_of_parts_eq_nil trivial rfl

@[simp] lemma wellFormed_int (i : Int64) : (Value.int i).WellFormed :=
  wellFormed_of_parts_eq_nil trivial rfl

@[simp] lemma wellFormed_real (r : Binary64) : (Value.real r).WellFormed :=
  wellFormed_of_parts_eq_nil trivial rfl

@[simp] lemma wellFormed_char (c : Char) : (Value.char c).WellFormed :=
  wellFormed_of_parts_eq_nil trivial rfl

@[simp] lemma wellFormed_quote (n : String) : (Value.quote n).WellFormed :=
  wellFormed_of_parts_eq_nil trivial rfl

lemma wellFormed_tuple_iff {vs : List Value} :
    (Value.tuple vs).WellFormed ↔ ∀ v ∈ vs, v.WellFormed :=
  wellFormed_iff.trans (and_iff_right trivial)

lemma wellFormed_seq_iff {vs : List Value} :
    (Value.seq vs).WellFormed ↔ ∀ v ∈ vs, v.WellFormed :=
  wellFormed_iff.trans (and_iff_right trivial)

lemma wellFormed_set_iff {vs : List Value} :
    (Value.set vs).WellFormed ↔ Distinct vs ∧ ∀ v ∈ vs, v.WellFormed :=
  wellFormed_iff

lemma wellFormed_map_iff {es : List (Value × Value)} :
    (Value.map es).WellFormed ↔ Increasing (es.map Prod.fst) ∧
      ∀ e ∈ es, e.1.WellFormed ∧ e.2.WellFormed := by
  simp only [wellFormed_iff (v := .map es), IsOrderly, parts, List.mem_append, List.mem_map,
    or_imp, forall_and, forall_exists_index, and_imp, forall_apply_eq_imp_iff₂]

end Value

/-! ### Well-formed sets and maps -/

namespace ValueSet

/-- A valid set of well-formed values. -/
structure WellFormed (s : ValueSet) : Prop where
  /-- The set itself is one. -/
  isValid : s.IsValid
  /-- So are all sets and maps in its elements. -/
  elements : ∀ v ∈ s.elements, v.WellFormed

lemma WellFormed.toValue {s : ValueSet} (h : s.WellFormed) : s.toValue.WellFormed :=
  Value.wellFormed_set_iff.mpr ⟨h.isValid.distinct, h.elements⟩

lemma wellFormed_ofDistinct_iff {vs : List Value} :
    (ofDistinct vs).WellFormed ↔ (Value.set vs).WellFormed := by
  rw [Value.wellFormed_set_iff]
  exact ⟨fun h => ⟨h.isValid.distinct, h.elements⟩, fun h => ⟨isValid_ofDistinct h.1, h.2⟩⟩

/-- Adding a well-formed value. -/
lemma WellFormed.insert {s : ValueSet} (h : s.WellFormed) {v : Value} (hv : v.WellFormed) :
    (s.insert v).WellFormed := by
  refine ⟨h.isValid.insert v, fun w hw => ?_⟩
  rcases h.isValid.mem_of_mem_insert hw with hw | rfl
  · exact h.elements w hw
  · exact hv

lemma wellFormed_ofList {vs : List Value} (h : ∀ v ∈ vs, v.WellFormed) : (ofList vs).WellFormed :=
  ⟨isValid_ofList vs, fun v hv => h v (mem_of_mem_ofList hv)⟩

end ValueSet

namespace ValueMap

variable {m : ValueMap}

/-- The keys of a well-formed map are distinct, as they increase. -/
lemma wellFormed_dom (h : m.toValue.WellFormed) : m.dom.WellFormed := by
  obtain ⟨hkeys, hentries⟩ := Value.wellFormed_map_iff.mp h
  refine ValueSet.wellFormed_ofDistinct_iff.mpr (Value.wellFormed_set_iff.mpr ⟨hkeys.distinct, ?_⟩)
  exact List.forall_mem_map.mpr fun e he => (hentries e he).1

/-- Its values are put into a set one by one. -/
lemma wellFormed_rng (h : m.toValue.WellFormed) : m.rng.WellFormed := by
  obtain ⟨-, hentries⟩ := Value.wellFormed_map_iff.mp h
  exact ValueSet.wellFormed_ofList (List.forall_mem_map.mpr fun e he => (hentries e he).2)

end ValueMap

/-! ### Values of names -/

/-- All values are well-formed. -/
def Named.WellFormed (ps : List Named) : Prop :=
  ∀ p ∈ ps, p.2.WellFormed

/-- All values in the frame are well-formed. -/
def Frame.WellFormed (f : Frame) : Prop :=
  Named.WellFormed f.entries

/-- All values in the match are well-formed. -/
def Match.WellFormed (m : Match) : Prop :=
  Named.WellFormed m.pairs

/-- All values in the context are well-formed, whatever the scope. -/
def Context.WellFormed (env : Context) : Prop :=
  ∀ scope ∈ env.inner :: env.outer, scope.frame.WellFormed

namespace Frame

lemma wellFormed_empty : empty.WellFormed := by
  intro p hp
  cases hp

/-- What a binding adds to the entries is well-formed or was there. -/
lemma WellFormed.bind {f : Frame} (h : f.WellFormed) (n : String) {v : Value}
    (hv : v.WellFormed) : (f.bind n v).WellFormed := by
  rcases f with ⟨es⟩
  show Named.WellFormed (bindEntry n v es)
  replace h : Named.WellFormed es := h
  induction es with
  | nil =>
    intro p hp
    obtain rfl := List.mem_singleton.mp hp
    exact hv
  | cons e es ih =>
    obtain ⟨he, hes⟩ := List.forall_mem_cons.mp h
    rw [bindEntry]
    split
    case isTrue => exact List.forall_mem_cons.mpr ⟨hv, hes⟩
    case isFalse => exact List.forall_mem_cons.mpr ⟨he, ih hes⟩

lemma WellFormed.of_get? {f : Frame} (h : f.WellFormed) {n : String} {v : Value}
    (hv : f.get? n = some v) : v.WellFormed := by
  obtain ⟨p, hp, rfl⟩ := Option.map_eq_some_iff.mp hv
  exact h p (List.mem_of_find?_eq_some hp)

end Frame

namespace Context

lemma wellFormed_withFrame {title : String} {f : Frame} (h : f.WellFormed) :
    (withFrame title f).WellFormed := by
  intro scope hscope
  obtain rfl := List.mem_singleton.mp hscope
  exact h

lemma WellFormed.extend {env : Context} (h : env.WellFormed) (title : String) {f : Frame}
    (hf : f.WellFormed) : (env.extend title f).WellFormed :=
  List.forall_mem_cons.mpr ⟨hf, h⟩

lemma WellFormed.of_lookup? {env : Context} (h : env.WellFormed) {n : String} {v : Value}
    (hv : env.lookup? n = some v) : v.WellFormed := by
  obtain ⟨scope, hscope, hget⟩ := List.exists_of_findSome?_eq_some hv
  exact (h scope hscope).of_get? hget

end Context

namespace Match

lemma wellFormed_of_collapse {ps : List Named} (hps : Named.WellFormed ps) {f g : Frame}
    (hf : f.WellFormed) (h : collapse ps f = some g) : g.WellFormed := by
  induction ps generalizing f with
  | nil =>
    obtain rfl := Option.some.inj h
    exact hf
  | cons p ps ih =>
    obtain ⟨hp, hps⟩ := List.forall_mem_cons.mp hps
    rw [collapse] at h
    split at h
    case h_1 w hw =>
      by_cases heq : (w == p.2) = true
      · exact ih hps hf (by rwa [if_pos heq] at h)
      · rw [if_neg heq] at h
        cases h
    case h_2 => exact ih hps (hf.bind _ hp) h

/-- The frame of a match binds no other values than the match. -/
lemma wellFormed_of_toFrame? {m : Match} (hm : m.WellFormed) {f : Frame}
    (h : m.toFrame? = some f) : f.WellFormed :=
  wellFormed_of_collapse hm Frame.wellFormed_empty h

end Match

end BoundedLogic
