import BoundedLogic.Pattern.Matching
import BoundedLogic.Proofs.Odometer.Product
import BoundedLogic.Proofs.Scope.Agreement
import Mathlib.Data.Multiset.Bind
import Mathlib.Logic.OpClass

set_option relaxedAutoImplicit false
set_option autoImplicit false

/-!
# What matches bind

In which order a match binds its names is nothing to its consistency, nor is it to what is found in
its frame up to equality of values. So a match can be known by its content: the names it binds, each
with the sort key of its value, as often as they come up and in no order. Of a list of matches in
turn the contents count, each as often as it comes up.

The ways in which matches are put together can then be followed without regard to any order. The
contents of a product are the sums of contents of its factors, and a sum does not depend on the
order of its terms.

## Main definitions

* `BoundedLogic.Match.spelling` — the names a match binds with the sort keys of their values, in
  order.
* `BoundedLogic.Match.content`, `BoundedLogic.Match.contents` — the content of a match and those of
  a list of matches.
* `BoundedLogic.Match.sums` — the contents of two lists of matches, put together in all ways.

## Main results

* `BoundedLogic.Match.contents_product_perm` — the contents of a product depend only on those of its
  factors, which can stand in any order.
* `BoundedLogic.Match.get?_congr_of_content_eq` — frames of matches with the same content give equal
  values to the same names.
-/

namespace BoundedLogic

namespace Match

/-! ### Contents -/

/-- What a match spells out: the names with the sort keys of their values, in binding order. -/
def spelling (m : Match) : List (String × List Int) :=
  m.pairs.map fun p => (p.1, p.2.sortKey)

@[simp] lemma spelling_append (m n : Match) : (m ++ n).spelling = m.spelling ++ n.spelling := by
  simp [spelling]

/-- What a match binds: the names with the sort keys of their values, in no order. -/
def content (m : Match) : Multiset (String × List Int) :=
  m.pairs.map fun p => (p.1, p.2.sortKey)

lemma content_eq_coe_spelling (m : Match) : m.content = ↑m.spelling := rfl

/-- What the matches of a list bind, in no order. -/
def contents (ms : List Match) : Multiset (Multiset (String × List Int)) :=
  ms.map content

@[simp] lemma content_append (m n : Match) : (m ++ n).content = m.content + n.content := by
  simp [content]

/-- Contents are the same if there are the same ones, as often and in some order. -/
lemma contents_eq_iff {ms ns : List Match} :
    contents ms = contents ns ↔ (ms.map content).Perm (ns.map content) :=
  Multiset.coe_eq_coe

/-- What is collected for the items of a list. -/
lemma contents_flatMap {α : Type} (f : α → List Match) (as : List α) :
    contents (as.flatMap f) = Multiset.bind (as : Multiset α) fun a => contents (f a) := by
  simp only [contents, Multiset.coe_bind, List.map_flatMap]

/-- Matches that spell out the same, each as often, have the same contents. -/
lemma contents_eq_of_perm {ms ns : List Match} (h : (ms.map spelling).Perm (ns.map spelling)) :
    contents ms = contents ns := by
  have hcontents := h.map Multiset.ofList
  rw [List.map_map, List.map_map] at hcontents
  exact contents_eq_iff.mpr hcontents

/-! ### Putting matches together -/

/-- Each of the first contents with each of the second ones. -/
def sums (A B : Multiset (Multiset (String × List Int))) :
    Multiset (Multiset (String × List Int)) :=
  A.bind fun a => B.map fun b => a + b

/-- It does not matter which contents are added first. -/
instance : LeftCommutative sums where
  left_comm A B C := by
    have hsum : ∀ A B : Multiset (Multiset (String × List Int)),
        sums A (sums B C) = A.bind fun a => B.bind fun b => C.map fun c => a + (b + c) := by
      intro A B
      simp only [sums, Multiset.map_bind, Multiset.map_map, Function.comp_def]
    rw [hsum, hsum, Multiset.bind_bind]
    simp only [add_left_comm]

/-- Matches continued by other ones. -/
lemma contents_flatMap_append (ms ns : List Match) :
    contents (ms.flatMap fun m => ns.map (m ++ ·)) = sums (contents ms) (contents ns) := by
  have hmap : ∀ m : Match, contents (ns.map (m ++ ·)) =
      (contents ns).map fun b => m.content + b := by
    intro m
    simp only [contents, List.map_map, Multiset.map_coe, Function.comp_def, content_append]
  rw [contents_flatMap, sums, contents, ← Multiset.map_coe, Multiset.bind_map]
  simp only [hmap]

/-- The contents of a product are those of its factors, added in all ways. -/
lemma contents_product (mss : List (List Match)) :
    contents (product mss) = (mss.map contents).foldr sums {0} := by
  induction mss with
  | nil => rfl
  | cons ms rest ih => rw [product, contents_flatMap_append, ih, List.map_cons, List.foldr_cons]

/-- **The contents of a product** do not depend on the order of the factors, nor on more than the
contents of each of them. -/
theorem contents_product_perm {mss nss : List (List Match)}
    (h : (mss.map contents).Perm (nss.map contents)) :
    contents (product mss) = contents (product nss) := by
  rw [contents_product, contents_product]
  exact h.foldr_eq {0}

/-! ### Consistency -/

/-- A name comes with one sort key only. -/
def Unambiguous (c : Multiset (String × List Int)) : Prop :=
  ∀ a ∈ c, ∀ b ∈ c, a.1 = b.1 → a.2 = b.2

instance : DecidablePred Unambiguous :=
  fun c => inferInstanceAs (Decidable (∀ a ∈ c, ∀ b ∈ c, a.1 = b.1 → a.2 = b.2))

/-- A match is consistent if its content is unambiguous. -/
lemma isConsistent_iff_unambiguous {m : Match} :
    m.isConsistent = true ↔ Unambiguous m.content := by
  rw [isConsistent_iff]
  simp only [Agrees, Named.Agree, Unambiguous, content, Multiset.mem_coe, List.forall_mem_map,
    Value.beq_iff]

/-! ### Frames -/

/-- Collapsing gives a name the value it has already, or else its first one. -/
lemma get?_of_collapse {ps : List Named} {f g : Frame} (h : collapse ps f = some g) (n : String) :
    g.get? n = (f.get? n).or (Named.find? ps n) := by
  induction ps generalizing f with
  | nil =>
    obtain rfl : f = g := by simpa [collapse] using h
    simp [Named.find?]
  | cons p ps ih =>
    obtain ⟨k, v⟩ := p
    rw [collapse] at h
    rw [Named.find?_cons]
    cases hk : f.get? k with
    | some w =>
      rw [hk] at h
      dsimp only at h
      split at h
      case isFalse => cases h
      case isTrue =>
        rw [ih h]
        by_cases hkn : k = n
        · rw [← hkn, hk, Option.some_or, Option.some_or]
        · rw [if_neg hkn]
    | none =>
      rw [hk] at h
      rw [ih h, Frame.get?_bind]
      by_cases hkn : k = n
      · rw [if_pos hkn, if_pos hkn, ← hkn, hk, Option.none_or, Option.some_or]
      · rw [if_neg hkn, if_neg hkn]

/-- The frame of a match gives each name its first value. -/
lemma get?_of_toFrame? {m : Match} {f : Frame} (h : m.toFrame? = some f) (n : String) :
    f.get? n = m.get? n := by
  rw [get?_of_collapse h, Frame.get?_empty, Option.none_or, get?]

/-- The frame of a match gives a name a value of the sort key it has in the content.

**Proof sketch.** The frame has the first value of the name. Any other value of it is equal, as the
match is consistent. -/
lemma get?_map_sortKey_eq_some_iff {m : Match} {f : Frame} (h : m.toFrame? = some f) {n : String}
    {k : List Int} : (f.get? n).map Value.sortKey = some k ↔ (n, k) ∈ m.content := by
  have hagrees : m.Agrees := isConsistent_iff.mp (by rw [isConsistent, h]; rfl)
  rw [get?_of_toFrame? h]
  constructor
  · intro hk
    obtain ⟨v, hv, rfl⟩ := Option.map_eq_some_iff.mp hk
    exact Multiset.mem_coe.mpr (List.mem_map.mpr ⟨(n, v), Named.mem_of_find? hv, rfl⟩)
  · intro hk
    obtain ⟨p, hp, heq⟩ := List.mem_map.mp (Multiset.mem_coe.mp hk)
    obtain ⟨rfl, rfl⟩ := Prod.mk.inj heq
    obtain ⟨v, hv, hvp⟩ := hagrees.exists_get? hp
    rw [hv, Option.map_some, Value.beq_iff.mp hvp]

/-- **Frames of matches with the same content** give equal values to the same names. -/
theorem get?_congr_of_content_eq {m m' : Match} (h : m.content = m'.content) {f f' : Frame}
    (hf : m.toFrame? = some f) (hf' : m'.toFrame? = some f') (n : String) :
    (f.get? n).map Value.sortKey = (f'.get? n).map Value.sortKey := by
  refine Option.ext fun k => ?_
  rw [get?_map_sortKey_eq_some_iff hf, get?_map_sortKey_eq_some_iff hf', h]

/-- What is read off the matches of a list, if it depends on the content only, is the same for lists
with the same contents. -/
lemma filterMap_perm_of_contents_eq {γ : Type} {f : Match → Option γ}
    (hf : ∀ m n, m.content = n.content → f m = f n) {ms ns : List Match}
    (h : contents ms = contents ns) : (ms.filterMap f).Perm (ns.filterMap f) := by
  obtain ⟨g, rfl⟩ := (Function.factorsThrough_iff f).mp fun m n => hf m n
  have hkeys := (contents_eq_iff.mp h).filterMap g
  rwa [List.filterMap_map, List.filterMap_map] at hkeys

end Match

end BoundedLogic
