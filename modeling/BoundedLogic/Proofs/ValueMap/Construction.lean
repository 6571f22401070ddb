import BoundedLogic.Proofs.Value.HashEquality
import BoundedLogic.Proofs.ValueSet.Validity
import BoundedLogic.Value.Map

set_option relaxedAutoImplicit false
set_option autoImplicit false

/-!
# Maps of pairs

A map is made of a list of pairs in two ways: the pairs are inserted one after another, each at its
place in the order, or they are sorted by their keys and all but the last of equal keys are dropped.
Of equal keys that look different the first way keeps the first one and the second way the last one,
so the entries need not be the same. But whichever way it was made, the map has increasing keys and
holds under each key the value of the last pair with that key, and this determines it up to
equality.

## Main definitions

* `BoundedLogic.ValueMap.insertAll` — pairs inserted one after another.
* `BoundedLogic.ValueMap.lastValue?` — the value of the last pair with a given key.
* `BoundedLogic.ValueMap.IsMapOf` — a map with increasing keys that holds these values.

## Main results

* `BoundedLogic.ValueMap.isMapOf_insertAll`, `BoundedLogic.ValueMap.isMapOf_ofPairs` — both ways
  lead to such a map.
* `BoundedLogic.ValueMap.IsMapOf.beq` — two such maps are equal.
* `BoundedLogic.ValueMap.ofPairs_agrees_with_insertAll` — the two ways agree.
-/

namespace BoundedLogic

namespace ValueMap

variable {m n : ValueMap} {k l v : Value} {es ps : List (Value × Value)}

/-! ### Looking keys up -/

/-- A key is looked for from the first entry on. -/
lemma get?_cons (e : Value × Value) (es : List (Value × Value)) (k : Value) :
    (mk (e :: es)).get? k = if e.1 == k then some e.2 else (mk es).get? k := by
  rw [get?, List.find?_cons]
  cases h : e.1 == k <;> rfl

/-- A key that is found is equal to one of the entries. -/
lemma exists_mem_of_get? (h : m.get? k = some v) : ∃ e ∈ m.entries, (e.1 == k) = true ∧ e.2 = v := by
  obtain ⟨e, he, rfl⟩ := Option.map_eq_some_iff.mp h
  have hek : (e.1 == k) = true := by simpa using List.find?_some he
  exact ⟨e, List.mem_of_find?_eq_some he, hek, rfl⟩

/-- A key is found if it is equal to one of the entries. -/
lemma isSome_get?_iff : (m.get? k).isSome = true ↔ k.Among (m.entries.map Prod.fst) := by
  rw [get?, Option.isSome_map, List.find?_isSome]
  simp [Value.Among]

/-- Where the keys increase, the value of an entry is found under its key. -/
lemma get?_of_mem (h : Value.Increasing (m.entries.map Prod.fst)) {e : Value × Value}
    (he : e ∈ m.entries) (hk : (e.1 == k) = true) : m.get? k = some e.2 := by
  obtain ⟨es⟩ := m
  induction es with
  | nil => cases he
  | cons f es ih =>
    obtain ⟨hf, hes⟩ := List.pairwise_cons.mp h
    rw [get?_cons]
    rcases List.mem_cons.mp he with rfl | he
    · rw [if_pos hk]
    · have hlt := hf e.1 (List.mem_map_of_mem he)
      have hne : ¬ (f.1 == k) = true := Value.not_beq_of_cmp_ne (by simp [hlt]) hk
      rw [if_neg hne]
      exact ih hes he

/-! ### Maps that hold the same values -/

/-- The entries of a map, with the sort keys of their keys. -/
def keyed (m : ValueMap) : List (List Int × Value) :=
  m.entries.map fun e => (e.1.sortKey, e.2)

/-- Where the keys increase, what the entries are can be found out by looking keys up. -/
lemma mem_keyed_iff (h : Value.Increasing (m.entries.map Prod.fst)) {x : List Int × Value} :
    x ∈ m.keyed ↔ ∃ k : Value, k.sortKey = x.1 ∧ m.get? k = some x.2 := by
  constructor
  · intro hx
    obtain ⟨e, he, rfl⟩ := List.mem_map.mp hx
    exact ⟨e.1, rfl, get?_of_mem h he BEq.rfl⟩
  · rintro ⟨k, hk, hget⟩
    obtain ⟨e, he, hek, hv⟩ := exists_mem_of_get? hget
    exact List.mem_map.mpr ⟨e, he, Prod.ext ((Value.beq_iff.mp hek).trans hk) hv⟩

/-- Increasing keys have increasing sort keys. -/
lemma pairwise_keyed (h : Value.Increasing (m.entries.map Prod.fst)) :
    m.keyed.Pairwise fun x y => compare x.1 y.1 = .lt := by
  rw [keyed, List.pairwise_map]
  refine (List.pairwise_map.mp h).imp fun {e f} hef => ?_
  rwa [← Value.cmp_eq_compare_sortKey]

/-- Maps with increasing keys that hold the same values have the same entries, but for what equal
keys look like.

**Proof sketch.** They have the same entries in some order, and this is the order of the keys in
both. -/
lemma keyed_eq_of_get?_eq (hm : Value.Increasing (m.entries.map Prod.fst))
    (hn : Value.Increasing (n.entries.map Prod.fst)) (h : ∀ k, m.get? k = n.get? k) :
    m.keyed = n.keyed := by
  have hnodup : ∀ {m : ValueMap}, Value.Increasing (m.entries.map Prod.fst) → m.keyed.Nodup := by
    intro m hm
    refine (pairwise_keyed hm).imp fun {x y} hxy heq => ?_
    rw [heq, Std.ReflOrd.compare_self] at hxy
    cases hxy
  have hperm : m.keyed.Perm n.keyed := by
    rw [List.perm_ext_iff_of_nodup (hnodup hm) (hnodup hn)]
    intro x
    simp only [mem_keyed_iff hm, mem_keyed_iff hn, h]
  refine hperm.eq_of_pairwise (fun x y _ _ hxy hyx => ?_) (pairwise_keyed hm) (pairwise_keyed hn)
  rw [Std.OrientedOrd.eq_swap, hyx] at hxy
  cases hxy

/-- Maps are equal if they have the same entries but for what equal keys look like. -/
lemma beq_of_keyed_eq (h : m.keyed = n.keyed) : (m == n) = true := by
  obtain ⟨es⟩ := m
  obtain ⟨fs⟩ := n
  show ((Value.map es).cmp (.map fs) == .eq) = true
  rw [beq_iff_eq, Value.cmp_map]
  induction es generalizing fs with
  | nil =>
    obtain rfl : fs = [] := List.map_eq_nil_iff.mp h.symm
    rfl
  | cons e es ih =>
    obtain ⟨f, fs, rfl, hef, hrest⟩ := List.map_eq_cons_iff.mp h.symm
    obtain ⟨hkey, hvalue⟩ := Prod.mk.inj hef
    have hself : e.2.cmp e.2 = .eq := Std.ReflCmp.compare_self
    rw [List.compareLex_cons_cons, ih fs hrest.symm, Value.cmp_eq_eq_iff.mpr hkey.symm, hvalue, hself]
    rfl

/-! ### The last of equal keys -/

/-- The value of the last pair whose key is equal to the given one. -/
def lastValue? (ps : List (Value × Value)) (k : Value) : Option Value :=
  ((ps.filter fun p => p.1 == k).getLast?).map Prod.snd

/-- A later pair comes before the first one. -/
lemma lastValue?_cons (p : Value × Value) (ps : List (Value × Value)) (k : Value) :
    lastValue? (p :: ps) k = (lastValue? ps k).or (if p.1 == k then some p.2 else none) := by
  rw [lastValue?, lastValue?]
  cases hp : p.1 == k with
  | false =>
    rw [List.filter_cons_of_neg (by simp [hp])]
    exact (Option.or_none ..).symm
  | true =>
    rw [List.filter_cons_of_pos (by simp [hp]), List.getLast?_cons]
    cases (ps.filter fun p => p.1 == k).getLast? <;> rfl

/-- There is such a value if the key is equal to that of some pair. -/
lemma isSome_lastValue?_iff : (lastValue? ps k).isSome = true ↔ ∃ p ∈ ps, (p.1 == k) = true := by
  rw [lastValue?, Option.isSome_map, List.getLast?_isSome]
  simp [List.filter_eq_nil_iff]

/-- The map has increasing keys, and under each key it holds the value of the last pair with that
key. -/
structure IsMapOf (m : ValueMap) (ps : List (Value × Value)) : Prop where
  /-- The keys increase. -/
  increasing : Value.Increasing (m.entries.map Prod.fst)
  /-- Each key holds its last value. -/
  get?_eq : ∀ k, m.get? k = lastValue? ps k

namespace IsMapOf

/-- **Maps of the same pairs are equal.** -/
lemma beq (hm : m.IsMapOf ps) (hn : n.IsMapOf ps) : (m == n) = true :=
  beq_of_keyed_eq (keyed_eq_of_get?_eq hm.increasing hn.increasing fun k => by
    rw [hm.get?_eq, hn.get?_eq])

variable (h : m.IsMapOf ps)

include h

/-- The keys are listed without repetition, -/
lemma isValid_dom : m.dom.IsValid :=
  ValueSet.isValid_ofDistinct h.increasing.distinct

/-- and they are those of the pairs. -/
lemma contains_dom_iff : m.dom.contains v = true ↔ ∃ p ∈ ps, (p.1 == v) = true := by
  rw [h.isValid_dom.contains_iff, ← isSome_lastValue?_iff, ← h.get?_eq]
  exact isSome_get?_iff.symm

/-- The values are those that are found under some key. -/
lemma contains_rng_iff :
    m.rng.contains v = true ↔ ∃ k w, m.get? k = some w ∧ (w == v) = true := by
  rw [rng, (ValueSet.isValid_ofList _).contains_iff, ValueSet.among_elements_ofList]
  constructor
  · rintro ⟨w, hw, hwv⟩
    obtain ⟨e, he, rfl⟩ := List.mem_map.mp hw
    exact ⟨e.1, e.2, get?_of_mem h.increasing he BEq.rfl, hwv⟩
  · rintro ⟨k, w, hget, hwv⟩
    obtain ⟨e, he, -, rfl⟩ := exists_mem_of_get? hget
    exact ⟨e.2, List.mem_map_of_mem he, hwv⟩

end IsMapOf

/-! ### Inserting pairs one after another -/

/-- The map into which pairs were inserted one after another. -/
def insertAll (ps : List (Value × Value)) : ValueMap :=
  ps.foldl (fun m p => m.insert p.1 p.2) empty

/-- The key that was inserted has its new value, and every other key the one it had.

**Proof sketch.** Induction on the entries. Where the search for the place of the key ends, there is
the key or none that is equal to it before. -/
lemma get?_insert (m : ValueMap) (k v l : Value) :
    (m.insert k v).get? l = if k == l then some v else m.get? l := by
  obtain ⟨es⟩ := m
  show (mk (insertEntry k v es)).get? l = _
  induction es with
  | nil => exact get?_cons (k, v) [] l
  | cons e es ih =>
    obtain ⟨k', w⟩ := e
    rw [insertEntry]
    cases hcmp : k.cmp k' with
    | lt => exact get?_cons (k, v) ((k', w) :: es) l
    | eq =>
      have hsame : (k' == l) = (k == l) := by
        rw [Bool.eq_iff_iff, Value.beq_iff, Value.beq_iff, Value.cmp_eq_eq_iff.mp hcmp]
      simp only [get?_cons, hsame]
      split <;> rfl
    | gt =>
      dsimp only
      rw [get?_cons, ih, get?_cons]
      by_cases hk' : (k' == l) = true
      · have hk : ¬ (k == l) = true := Value.not_beq_of_cmp_ne (by simp [hcmp]) hk'
        rw [if_pos hk', if_neg hk, if_pos hk']
      · rw [if_neg hk', if_neg hk']

/-- The keys after an insertion are those from before and the new one. -/
lemma mem_keys_insertEntry (h : l ∈ (insertEntry k v es).map Prod.fst) :
    l = k ∨ l ∈ es.map Prod.fst := by
  induction es with
  | nil => exact .inl (List.mem_singleton.mp h)
  | cons e es ih =>
    rw [insertEntry] at h
    split at h
    case h_1 => exact List.mem_cons.mp h
    case h_2 => exact .inr h
    case h_3 =>
      rcases List.mem_cons.mp h with rfl | h
      · exact .inr List.mem_cons_self
      · exact (ih h).imp_right (List.mem_cons_of_mem _)

/-- An insertion keeps the keys increasing. -/
lemma increasing_insertEntry (h : Value.Increasing (es.map Prod.fst)) (k v : Value) :
    Value.Increasing ((insertEntry k v es).map Prod.fst) := by
  induction es with
  | nil => exact List.pairwise_singleton _ _
  | cons e es ih =>
    obtain ⟨k', w⟩ := e
    obtain ⟨hk', hes⟩ := List.pairwise_cons.mp h
    rw [insertEntry]
    cases hcmp : k.cmp k' with
    | lt =>
      refine List.pairwise_cons.mpr ⟨fun l hl => ?_, h⟩
      rcases List.mem_cons.mp hl with rfl | hl
      · exact hcmp
      · exact Std.TransCmp.lt_trans hcmp (hk' l hl)
    | eq => exact h
    | gt =>
      refine List.pairwise_cons.mpr ⟨fun l hl => ?_, ih hes⟩
      rcases mem_keys_insertEntry hl with rfl | hl
      · exact Std.OrientedCmp.lt_of_gt hcmp
      · exact hk' l hl

/-- Inserting pairs into a map keeps its keys increasing. -/
lemma increasing_foldl_insert (ps : List (Value × Value))
    (h : Value.Increasing (m.entries.map Prod.fst)) :
    Value.Increasing ((ps.foldl (fun m p => m.insert p.1 p.2) m).entries.map Prod.fst) := by
  induction ps generalizing m with
  | nil => exact h
  | cons p ps ih => exact ih (increasing_insertEntry h p.1 p.2)

/-- After pairs were inserted into a map a key holds the value of its last pair, or what it held. -/
lemma get?_foldl_insert (ps : List (Value × Value)) (m : ValueMap) (k : Value) :
    (ps.foldl (fun m p => m.insert p.1 p.2) m).get? k = (lastValue? ps k).or (m.get? k) := by
  induction ps generalizing m with
  | nil => rfl
  | cons p ps ih =>
    rw [List.foldl_cons, ih, get?_insert, lastValue?_cons, Option.or_assoc]
    split <;> rfl

/-- **Pairs inserted one after another** are the map of the pairs. -/
theorem isMapOf_insertAll (ps : List (Value × Value)) : (insertAll ps).IsMapOf ps where
  increasing := increasing_foldl_insert ps List.Pairwise.nil
  get?_eq k := by
    rw [insertAll, get?_foldl_insert]
    exact Option.or_none

/-! ### Sorting pairs -/

/-- The pairs in the order of their keys, equal keys in their old order. -/
def sortPairs (ps : List (Value × Value)) : List (Value × Value) :=
  ps.mergeSort fun p q => (p.1.cmp q.1).isLE

/-- Each key is arranged once for the sort, which is a sort by the order of values. -/
lemma ofPairs_eq (ps : List (Value × Value)) : ofPairs ps = ⟨dropOverwritten (sortPairs ps)⟩ := by
  have hkeyed : (ps.map fun p => (p.1.canonical, p)).mergeSort
      (fun a b => Value.listedLE a.1 b.1) =
      (sortPairs ps).map fun p => (p.1.canonical, p) := by
    symm
    exact List.map_mergeSort fun _ _ _ _ => rfl
  simp only [ofPairs, hkeyed, List.map_map, Function.comp_def, List.map_id']

/-- The sorted keys do not decrease. -/
lemma pairwise_sortPairs (ps : List (Value × Value)) :
    (sortPairs ps).Pairwise fun p q => (p.1.cmp q.1).isLE :=
  List.pairwise_mergeSort (fun _ _ _ => Std.TransCmp.isLE_trans)
    (fun p q => Value.cmp_isLE_or p.1 q.1) ps

/-- Sorting leaves pairs with equal keys in their old order. -/
lemma filter_sortPairs (ps : List (Value × Value)) (k : Value) :
    ((sortPairs ps).filter fun p => p.1 == k) = ps.filter fun p => p.1 == k := by
  have hequal : (ps.filter fun p => p.1 == k).Pairwise fun p q => (p.1.cmp q.1).isLE := by
    refine List.pairwise_of_forall_mem_list fun p hp q hq => ?_
    have hpq := BEq.trans (List.mem_filter.mp hp).2 (BEq.symm (List.mem_filter.mp hq).2)
    rw [Value.beq_iff_cmp_eq.mp hpq]
    rfl
  have hsublist : (ps.filter fun p => p.1 == k).Sublist (sortPairs ps) :=
    List.sublist_mergeSort (fun _ _ _ => Std.TransCmp.isLE_trans)
      (fun p q => Value.cmp_isLE_or p.1 q.1) hequal List.filter_sublist
  have hlength := ((List.mergeSort_perm ps fun p q => (p.1.cmp q.1).isLE).filter
    fun p => p.1 == k).length_eq
  have hfiltered := hsublist.filter fun p => p.1 == k
  rw [List.filter_filter] at hfiltered
  simp only [Bool.and_self] at hfiltered
  exact (hfiltered.eq_of_length hlength.symm).symm

/-- What is kept is among what was there. -/
lemma dropOverwritten_sublist (es : List (Value × Value)) : (dropOverwritten es).Sublist es := by
  fun_induction dropOverwritten es with
  | case1 => exact .refl _
  | case2 e => exact .refl _
  | case3 e f es h ih => exact ih.cons e
  | case4 e f es h ih => exact ih.cons_cons e

/-- A key that is unequal to the next one is below all keys after it. -/
lemma lt_of_sorted {e f : Value × Value}
    (h : (e :: f :: es).Pairwise fun p q => (p.1.cmp q.1).isLE) (hne : ¬ (e.1 == f.1) = true) :
    ∀ g ∈ f :: es, e.1.cmp g.1 = .lt := by
  obtain ⟨he, hes⟩ := List.pairwise_cons.mp h
  have hlt : e.1.cmp f.1 = .lt := by
    have hle := he f List.mem_cons_self
    rw [Value.beq_iff_cmp_eq] at hne
    cases hcmp : e.1.cmp f.1 with
    | lt => rfl
    | eq => exact absurd hcmp hne
    | gt => rw [hcmp] at hle; cases hle
  intro g hg
  rcases List.mem_cons.mp hg with rfl | hg
  · exact hlt
  · exact Std.TransCmp.lt_of_lt_of_isLE hlt ((List.pairwise_cons.mp hes).1 g hg)

/-- Of sorted pairs those are kept whose keys increase. -/
lemma increasing_dropOverwritten (h : es.Pairwise fun p q => (p.1.cmp q.1).isLE) :
    Value.Increasing ((dropOverwritten es).map Prod.fst) := by
  fun_induction dropOverwritten es with
  | case1 => exact .nil
  | case2 e => exact List.pairwise_singleton _ _
  | case3 e f es _ ih => exact ih (List.pairwise_cons.mp h).2
  | case4 e f es hne ih =>
    refine List.pairwise_cons.mpr ⟨List.forall_mem_map.mpr fun g hg => ?_,
      ih (List.pairwise_cons.mp h).2⟩
    exact lt_of_sorted h hne g ((dropOverwritten_sublist _).subset hg)

/-- Of sorted pairs with equal keys the last one is kept. -/
lemma get?_dropOverwritten (h : es.Pairwise fun p q => (p.1.cmp q.1).isLE) (k : Value) :
    (mk (dropOverwritten es)).get? k = lastValue? es k := by
  fun_induction dropOverwritten es with
  | case1 => rfl
  | case2 e => rw [get?_cons, lastValue?_cons]; rfl
  | case3 e f es hef ih =>
    rw [ih (List.pairwise_cons.mp h).2, lastValue?_cons e]
    by_cases hek : (e.1 == k) = true
    -- the pair is dropped, but the next one has its key
    · have hlater : (lastValue? (f :: es) k).isSome = true :=
        isSome_lastValue?_iff.mpr ⟨f, List.mem_cons_self, BEq.trans (BEq.symm hef) hek⟩
      exact (Option.or_of_isSome hlater).symm
    · rw [if_neg hek, Option.or_none]
  | case4 e f es hne ih =>
    rw [get?_cons, ih (List.pairwise_cons.mp h).2, lastValue?_cons e]
    by_cases hek : (e.1 == k) = true
    -- the pair is kept, and no later one has its key
    · have hlater : lastValue? (f :: es) k = none := by
        rw [← Option.not_isSome_iff_eq_none, isSome_lastValue?_iff]
        rintro ⟨g, hg, hgk⟩
        have hlt := lt_of_sorted h hne g hg
        exact Value.not_beq_of_cmp_ne (by simp [hlt]) hgk hek
      rw [hlater, Option.none_or, if_pos hek]
    · rw [if_neg hek, if_neg hek, Option.or_none]

/-- **Sorted pairs of which the last of equal keys are kept** are the map of the pairs. -/
theorem isMapOf_ofPairs (ps : List (Value × Value)) : (ofPairs ps).IsMapOf ps where
  increasing := by
    rw [ofPairs_eq]
    exact increasing_dropOverwritten (pairwise_sortPairs ps)
  get?_eq k := by
    rw [ofPairs_eq, get?_dropOverwritten (pairwise_sortPairs ps), lastValue?, filter_sortPairs,
      lastValue?]

/-! ### Both ways -/

/-- **The two ways of making a map agree**, for every list of pairs, whatever keys are equal in it.
The map of the sorted pairs and the one into which the pairs were inserted one after another are
equal, have the same place in the order and are hashed by the same bytes. In both

* the keys increase, and under each key there is the value of the last pair with that key, or none;
* the domain has the values that are equal to a key of the pairs, and the range those that are equal
  to what is found under some key, both without repetition. -/
theorem ofPairs_agrees_with_insertAll (ps : List (Value × Value)) :
    (ofPairs ps == insertAll ps) = true ∧ (ofPairs ps).cmp (insertAll ps) = .eq ∧
      (ofPairs ps).hashStream = (insertAll ps).hashStream ∧
      ∀ m ∈ [ofPairs ps, insertAll ps],
        Value.Increasing (m.entries.map Prod.fst) ∧
        (∀ k, m.get? k = lastValue? ps k) ∧
        (∀ v, m.dom.contains v = true ↔ ∃ p ∈ ps, (p.1 == v) = true) ∧
        (∀ v, m.rng.contains v = true ↔ ∃ k w, m.get? k = some w ∧ (w == v) = true) ∧
        Value.Distinct m.dom.elements ∧ Value.Distinct m.rng.elements := by
  have hsorted := isMapOf_ofPairs ps
  have hinserted := isMapOf_insertAll ps
  have hequal : ((ofPairs ps).toValue == (insertAll ps).toValue) = true :=
    hsorted.beq hinserted
  refine ⟨hsorted.beq hinserted, Value.beq_iff_cmp_eq.mp hequal,
    Value.hashStream_eq_of_beq hequal, fun m hm => ?_⟩
  have hmap : m.IsMapOf ps := by
    rcases List.mem_pair.mp hm with rfl | rfl
    · exact hsorted
    · exact hinserted
  exact ⟨hmap.increasing, hmap.get?_eq, fun v => hmap.contains_dom_iff,
    fun v => hmap.contains_rng_iff, hmap.isValid_dom.distinct, (ValueSet.isValid_ofList _).distinct⟩

end ValueMap

end BoundedLogic
