import BoundedLogic.Proofs.Scope.Agreement

set_option relaxedAutoImplicit false
set_option autoImplicit false

/-!
# The names of a frame

A frame has each of its names once. When a match collapses, a name gets its place in the frame at
its first binding, and later bindings of it add nothing; so the names of the frame are those of the
match without the repeats.

## Main definitions

* `BoundedLogic.Frame.names` — the names that a frame binds.

## Main results

* `BoundedLogic.eraseDups_flatMap_eraseDups` — repeats can be left out of the parts first.
* `BoundedLogic.Match.names_of_toFrame?` — the names of the frame of a match.
-/

namespace BoundedLogic

/-! ### Leaving out repeats -/

section

universe u v

variable {α : Type u} {β : Type v} [BEq α] [LawfulBEq α]

/-- Repeats can be left out before or after items that are not wanted. -/
lemma eraseDups_filter (xs : List α) (keep : α → Bool) :
    (xs.filter keep).eraseDups = xs.eraseDups.filter keep := by
  induction xs generalizing keep with
  | nil => rfl
  | cons x xs ih =>
    rw [List.eraseDups_cons, ih]
    cases hx : keep x with
    | true =>
      rw [List.filter_cons_of_pos hx, List.filter_cons_of_pos hx, List.eraseDups_cons,
        List.filter_filter, ih, List.filter_filter]
      simp only [Bool.and_comm]
    | false =>
      rw [List.filter_cons_of_neg (by simp [hx]), List.filter_cons_of_neg (by simp [hx]), ih,
        List.filter_filter]
      refine List.filter_congr fun y _ => ?_
      by_cases hyx : y = x
      · rw [hyx, hx, Bool.false_and]
      · rw [beq_eq_false_iff_ne.mpr hyx, Bool.not_false, Bool.and_true]

/-- There are no repeats to be left out again. -/
lemma eraseDups_eraseDups (xs : List α) : xs.eraseDups.eraseDups = xs.eraseDups := by
  induction xs with
  | nil => rfl
  | cons x xs ih =>
    rw [List.eraseDups_cons, eraseDups_filter, List.eraseDups_cons, List.filter_filter,
      eraseDups_filter, ih]
    simp only [Bool.and_self]

/-- Nothing is repeated any more. -/
lemma nodup_eraseDups (xs : List α) : xs.eraseDups.Nodup := by
  induction xs with
  | nil => exact List.nodup_nil
  | cons x xs ih =>
    rw [List.eraseDups_cons, eraseDups_filter]
    exact List.nodup_cons.mpr ⟨by simp, ih.filter _⟩

/-- **Repeats can be left out of the parts** of a list first. -/
lemma eraseDups_flatMap_eraseDups (f : β → List α) (xs : List β) :
    (xs.flatMap fun x => (f x).eraseDups).eraseDups = (xs.flatMap f).eraseDups := by
  induction xs with
  | nil => rfl
  | cons x xs ih =>
    have hsame : ∀ ys : List α, ys.removeAll (f x).eraseDups = ys.removeAll (f x) := by
      intro ys
      refine List.filter_congr fun y _ => ?_
      rw [Bool.eq_iff_iff, Bool.not_eq_true', Bool.not_eq_true', List.elem_eq_contains,
        List.elem_eq_contains, List.contains_eq_mem, List.contains_eq_mem]
      simp only [List.mem_eraseDups]
    rw [List.flatMap_cons, List.flatMap_cons, List.eraseDups_append, List.eraseDups_append,
      eraseDups_eraseDups, hsame, List.removeAll, List.removeAll, eraseDups_filter, ih,
      ← eraseDups_filter]

end

/-! ### Names -/

namespace Frame

/-- The names that a frame binds, in the order of their first bindings. -/
def names (f : Frame) : List String :=
  f.entries.map Prod.fst

/-- A name is bound if it is among the names. -/
lemma mem_names_iff {f : Frame} {n : String} : n ∈ f.names ↔ (f.get? n).isSome = true := by
  rw [get?, Named.find?, Option.isSome_map, List.find?_isSome, names, List.mem_map]
  exact exists_congr fun p => and_congr_right fun _ => beq_iff_eq.symm

/-- A new name comes after the others. -/
lemma names_bind {f : Frame} {n : String} (hn : n ∉ f.names) (v : Value) :
    (f.bind n v).names = f.names ++ [n] := by
  obtain ⟨es⟩ := f
  show (bindEntry n v es).map Prod.fst = es.map Prod.fst ++ [n]
  induction es with
  | nil => rfl
  | cons e es ih =>
    have hne : e.1 ≠ n := fun he => hn (he ▸ List.mem_cons_self)
    have hrest : n ∉ es.map Prod.fst := fun hmem => hn (List.mem_cons_of_mem _ hmem)
    rw [bindEntry, if_neg hne, List.map_cons, List.map_cons, ih hrest, List.cons_append]

end Frame

namespace Match

/-- Pairs that are added to a frame add their names, without repeats and without those that are
there. -/
lemma names_of_collapse {ps : List Named} {f g : Frame} (h : collapse ps f = some g) :
    g.names = f.names ++ ((ps.map Prod.fst).filter fun n => decide (n ∉ f.names)).eraseDups := by
  induction ps generalizing f with
  | nil =>
    obtain rfl : f = g := Option.some.inj h
    exact (List.append_nil _).symm
  | cons p ps ih =>
    obtain ⟨n, v⟩ := p
    rw [collapse] at h
    rw [List.map_cons]
    cases hn : f.get? n with
    | some w =>
      have hmem : n ∈ f.names := Frame.mem_names_iff.mpr (by rw [hn, Option.isSome_some])
      rw [List.filter_cons_of_neg (by simpa using hmem)]
      rw [hn] at h
      dsimp only at h
      split at h
      case isTrue => exact ih h
      case isFalse => cases h
    | none =>
      have hmem : n ∉ f.names := by simp [Frame.mem_names_iff, hn]
      have hkeep : ∀ k, decide (k ∉ f.names ++ [n]) = (!k == n && decide (k ∉ f.names)) := by
        intro k
        by_cases hk : k = n <;> simp [hk]
      rw [hn] at h
      rw [List.filter_cons_of_pos (by simpa using hmem), List.eraseDups_cons, List.filter_filter,
        ih h, Frame.names_bind hmem, List.append_assoc, List.singleton_append,
        List.filter_congr fun k _ => hkeep k]

/-- **The names of the frame of a match** are those that the match binds, each at its first
binding. -/
theorem names_of_toFrame? {m : Match} {f : Frame} (h : m.toFrame? = some f) :
    f.names = (m.pairs.map Prod.fst).eraseDups := by
  rw [names_of_collapse h]
  exact congrArg List.eraseDups (List.filter_eq_self.mpr fun _ _ => rfl)

end Match

end BoundedLogic
