import BoundedLogic.Proofs.Numeric.Nearest
import BoundedLogic.Value.Order
import Mathlib.Data.String.Basic

set_option relaxedAutoImplicit false
set_option autoImplicit false

/-!
# Sort keys

The order of values is that of lists of integers: every value has a sort key, and values compare
like their keys, from left to right. A key starts with the rank of the kind; numbers follow with
their units, so that integers and reals stand on one line; texts and lists follow part by part, each
part after a one, up to a zero. As no key is a proper initial part of another, what is put after two
keys is looked at only if these are equal.

## Main definitions

* `BoundedLogic.Value.listedKey` — the sort key of a value, each set taken as it is listed.
* `BoundedLogic.Value.sortKey` — the sort key of a value.

## Main results

* `BoundedLogic.Value.compare_listedKey_append` — keys with something after them compare like the
  values first, and then like what is after them.
* `BoundedLogic.Value.cmp_eq_compare_sortKey` — values compare like their sort keys.
-/

namespace BoundedLogic

namespace Value

/-! ### Keys of texts -/

/-- The key of a text: its characters, each after a one, up to a zero. -/
def charKeys : List Char → List Int
  | [] => [0]
  | c :: cs => 1 :: (c.toNat : Int) :: charKeys cs

/-- The key of a text. -/
def textKey (s : String) : List Int :=
  charKeys s.toList

/-! ### Keys of values as they are listed -/

mutual

/-- The sort key of a value, each set taken as the list of its elements. -/
def listedKey : Value → List Int
  | .nil => [0]
  | .bool b => [1, b.toInt]
  | .int i => [2, i.toInt * Binary64.unitsPerOne]
  | .real r => [2, r.scaled]
  | .char c => [3, c.toNat]
  | .quote q => 4 :: textKey q
  | .token v => 5 :: listedKey v
  | .tuple vs => 6 :: listedKeys vs
  | .record n fs => 7 :: (textKey n ++ fieldKeys fs)
  | .set vs => 8 :: listedKeys vs
  | .seq vs => 9 :: listedKeys vs
  | .map es => 10 :: entryKeys es
  | .function n k => 11 :: (textKey n ++ [(k : Int)])

/-- The key of a list of values: their keys, each after a one, up to a zero. -/
def listedKeys : List Value → List Int
  | [] => [0]
  | v :: vs => 1 :: (listedKey v ++ listedKeys vs)

/-- The key of a list of fields, each by name and value. -/
def fieldKeys : List (String × Value) → List Int
  | [] => [0]
  | (n, v) :: fs => 1 :: (textKey n ++ (listedKey v ++ fieldKeys fs))

/-- The key of a list of entries, each by key and value. -/
def entryKeys : List (Value × Value) → List Int
  | [] => [0]
  | (k, v) :: es => 1 :: (listedKey k ++ (listedKey v ++ entryKeys es))

end

/-! ### Comparison of keys -/

lemma compare_cons_self (n : Int) (s t : List Int) : compare (n :: s) (n :: t) = compare s t := by
  rw [List.compare_cons_cons, Std.ReflOrd.compare_self, Ordering.eq_then]

/-- What is before two lists counts only once. -/
lemma compare_append_left (k s t : List Int) : compare (k ++ s) (k ++ t) = compare s t := by
  induction k with
  | nil => rfl
  | cons n k ih => rw [List.cons_append, List.cons_append, compare_cons_self, ih]

/-- Keys of two integers with something after them compare by the second. -/
lemma compare_pair_append (r m n : Int) (s t : List Int) :
    compare ([r, m] ++ s) ([r, n] ++ t) = (compare m n).then (compare s t) := by
  show compare (r :: m :: s) (r :: n :: t) = _
  rw [compare_cons_self, List.compare_cons_cons]

/-- A key whose first integer is smaller is smaller. -/
lemma compare_cons_of_lt {m n : Int} (h : m < n) (s t : List Int) :
    compare (m :: s) (n :: t) = .lt := by
  rw [List.compare_cons_cons, compare_lt_iff_lt.mpr h, Ordering.lt_then]

/-- A key whose first integer is larger is larger. -/
lemma compare_cons_of_gt {m n : Int} (h : n < m) (s t : List Int) :
    compare (m :: s) (n :: t) = .gt := by
  rw [List.compare_cons_cons, compare_gt_iff_gt.mpr h, Ordering.gt_then]

lemma compare_charKeys_of_lt {as bs : List Char} (h : as < bs) (s t : List Int) :
    compare (charKeys as ++ s) (charKeys bs ++ t) = .lt := by
  induction as generalizing bs with
  | nil =>
    cases bs with
    | nil => exact absurd h (List.lt_irrefl [])
    | cons b bs => exact compare_cons_of_lt (by norm_num) _ _
  | cons a as ih =>
    cases bs with
    | nil => exact absurd h (List.not_lt_nil _)
    | cons b bs =>
      simp only [charKeys, List.cons_append, compare_cons_self]
      rcases List.cons_lt_cons_iff.mp h with hab | ⟨rfl, hlt⟩
      · exact compare_cons_of_lt (Int.ofNat_lt.mpr hab) _ _
      · rw [compare_cons_self, ih hlt]

/-- Keys of texts with something after them compare like the texts first. -/
lemma compare_textKey_append (m n : String) (s t : List Int) :
    compare (textKey m ++ s) (textKey n ++ t) = (compare m n).then (compare s t) := by
  show _ = (compareOfLessAndEq m n).then (compare s t)
  unfold compareOfLessAndEq
  split
  case isTrue h => exact compare_charKeys_of_lt (String.lt_iff_toList_lt.mp h) s t
  case isFalse hlt =>
    split
    case isTrue h =>
      subst h
      exact compare_append_left _ s t
    case isFalse hne =>
      have hgt : n < m := lt_of_le_of_ne (not_lt.mp hlt) (Ne.symm hne)
      rw [Std.OrientedOrd.eq_swap,
        show compare (textKey n ++ t) (textKey m ++ s) = .lt from
          compare_charKeys_of_lt (String.lt_iff_toList_lt.mp hgt) t s]
      rfl

/-! ### Keys of values -/

/-- An order that is given by less-than and equality is that of the images under an injection that
respects less-than. -/
lemma compareOfLessAndEq_eq_compare {α : Type} [LT α] [DecidableLT α] [DecidableEq α] {f : α → Int}
    (hlt : ∀ a b, f a < f b ↔ a < b) (hinj : Function.Injective f) (a b : α) :
    compareOfLessAndEq a b = compare (f a) (f b) := by
  unfold compareOfLessAndEq
  split
  case isTrue h => exact (compare_lt_iff_lt.mpr ((hlt a b).mpr h)).symm
  case isFalse h =>
    split
    case isTrue heq => exact (compare_eq_iff_eq.mpr (congrArg f heq)).symm
    case isFalse hne =>
      have hle : f b ≤ f a := not_lt.mp (mt (hlt a b).mp h)
      exact (compare_gt_iff_gt.mpr (lt_of_le_of_ne hle (hinj.ne (Ne.symm hne)))).symm

lemma compare_bool (a b : Bool) : compare a b = compare a.toInt b.toInt := by
  cases a <;> cases b <;> rfl

lemma compare_char (a b : Char) : compare a b = compare (a.toNat : Int) b.toNat :=
  compareOfLessAndEq_eq_compare (f := fun c => c.toNat) (fun _ _ => Int.ofNat_lt)
    (fun _ _ h => Char.toNat_inj.mp (Int.ofNat_inj.mp h)) a b

lemma compare_nat (a b : Nat) : compare a b = compare (a : Int) b :=
  compareOfLessAndEq_eq_compare (f := fun n : Nat => (n : Int)) (fun _ _ => Int.ofNat_lt)
    (fun _ _ h => Int.ofNat_inj.mp h) a b

lemma compare_int64 (a b : Int64) :
    compare a b = compare (a.toInt * Binary64.unitsPerOne) (b.toInt * Binary64.unitsPerOne) := by
  have hpos : (0 : Int) < Binary64.unitsPerOne := Binary64.unitsPerOne_pos
  refine compareOfLessAndEq_eq_compare (f := fun i => i.toInt * Binary64.unitsPerOne)
    (fun _ _ => ?_) (fun _ _ h => ?_) a b
  · exact (Int.mul_lt_mul_right hpos).trans Int64.lt_iff_toInt_lt.symm
  · exact Int64.toInt_inj.mp (Int.eq_of_mul_eq_mul_right hpos.ne' h)

/-- Values of different ranks compare like their ranks. -/
lemma compareListed_of_rank_ne {a b : Value} (h : a.kind.rank ≠ b.kind.rank) :
    compareListed a b = compare a.kind.rank b.kind.rank := by
  unfold compareListed
  split
  case h_16 => rfl
  all_goals exact absurd rfl h

/-- A key starts with the rank. -/
lemma exists_listedKey_eq (v : Value) : ∃ k, v.listedKey = (v.kind.rank : Int) :: k := by
  cases v <;> exact ⟨_, rfl⟩

lemma compare_listedKey_of_rank_ne {a b : Value} (h : a.kind.rank ≠ b.kind.rank) (s t : List Int) :
    compare (a.listedKey ++ s) (b.listedKey ++ t) = (compareListed a b).then (compare s t) := by
  obtain ⟨k, hk⟩ := exists_listedKey_eq a
  obtain ⟨l, hl⟩ := exists_listedKey_eq b
  rw [compareListed_of_rank_ne h, hk, hl]
  rcases lt_or_gt_of_ne h with h | h
  · rw [compare_lt_iff_lt.mpr h]
    exact compare_cons_of_lt (Int.ofNat_lt.mpr h) _ _
  · rw [compare_gt_iff_gt.mpr h]
    exact compare_cons_of_gt (Int.ofNat_lt.mpr h) _ _

mutual

/-- **Keys with something after them** compare like the values first, and then like what is after
them.

**Proof sketch.** Values of different ranks are told apart by the first integer of their keys. The
keys of two values of one rank compare part by part, as the values do. -/
theorem compare_listedKey_append (a b : Value) (s t : List Int) :
    compare (a.listedKey ++ s) (b.listedKey ++ t) = (compareListed a b).then (compare s t) := by
  by_cases h : a.kind.rank = b.kind.rank
  · match a, b, h with
    | .nil, .nil, _ => simp [listedKey, compareListed]
    | .bool a, .bool b, _ =>
      rw [listedKey, listedKey, compareListed, compare_bool, compare_pair_append]
    | .int a, .int b, _ =>
      rw [listedKey, listedKey, compareListed, compare_int64, compare_pair_append]
    | .real a, .real b, _ =>
      rw [listedKey, listedKey, compareListed, Binary64.compare_eq_compare_scaled,
        compare_pair_append]
    | .int a, .real b, _ =>
      rw [listedKey, listedKey, compareListed, Binary64.compareInt_eq_compare, compare_pair_append]
    | .real a, .int b, _ =>
      rw [listedKey, listedKey, compareListed, Binary64.compareInt_eq_compare, Int.compare_swap,
        compare_pair_append]
    | .char a, .char b, _ =>
      rw [listedKey, listedKey, compareListed, compare_char, compare_pair_append]
    | .quote a, .quote b, _ => simp [listedKey, compareListed, compare_textKey_append]
    | .token a, .token b, _ =>
      simp [listedKey, compareListed, compare_listedKey_append a b]
    | .tuple a, .tuple b, _ => simp [listedKey, compareListed, compare_listedKeys_append a b]
    | .record m a, .record n b, _ =>
      simp [listedKey, compareListed, compare_textKey_append, compare_fieldKeys_append a b,
        Ordering.then_assoc]
    | .set a, .set b, _ => simp [listedKey, compareListed, compare_listedKeys_append a b]
    | .seq a, .seq b, _ => simp [listedKey, compareListed, compare_listedKeys_append a b]
    | .map a, .map b, _ => simp [listedKey, compareListed, compare_entryKeys_append a b]
    | .function m a, .function n b, _ =>
      simp [listedKey, compareListed, compare_textKey_append, compare_nat, Ordering.then_assoc]
  · exact compare_listedKey_of_rank_ne h s t

/-- Keys of lists of values with something after them compare like the lists first. -/
theorem compare_listedKeys_append (as bs : List Value) (s t : List Int) :
    compare (listedKeys as ++ s) (listedKeys bs ++ t) =
      (compareLists as bs).then (compare s t) := by
  match as, bs with
  | [], [] => simp [listedKeys, compareLists]
  | [], _ :: _ => rw [listedKeys, listedKeys, compareLists]; rfl
  | _ :: _, [] => rw [listedKeys, listedKeys, compareLists]; rfl
  | a :: as, b :: bs =>
    simp [listedKeys, compareLists, compare_listedKey_append a b, compare_listedKeys_append as bs,
      Ordering.then_assoc]

/-- Keys of lists of fields with something after them compare like the lists first. -/
theorem compare_fieldKeys_append (as bs : List (String × Value)) (s t : List Int) :
    compare (fieldKeys as ++ s) (fieldKeys bs ++ t) = (compareFields as bs).then (compare s t) := by
  match as, bs with
  | [], [] => simp [fieldKeys, compareFields]
  | [], (_, _) :: _ => rw [fieldKeys, fieldKeys, compareFields]; rfl
  | (_, _) :: _, [] => rw [fieldKeys, fieldKeys, compareFields]; rfl
  | (m, a) :: as, (n, b) :: bs =>
    simp [fieldKeys, compareFields, compare_textKey_append, compare_listedKey_append a b,
      compare_fieldKeys_append as bs, Ordering.then_assoc]

/-- Keys of lists of entries with something after them compare like the lists first. -/
theorem compare_entryKeys_append (as bs : List (Value × Value)) (s t : List Int) :
    compare (entryKeys as ++ s) (entryKeys bs ++ t) =
      (compareEntries as bs).then (compare s t) := by
  match as, bs with
  | [], [] => simp [entryKeys, compareEntries]
  | [], (_, _) :: _ => rw [entryKeys, entryKeys, compareEntries]; rfl
  | (_, _) :: _, [] => rw [entryKeys, entryKeys, compareEntries]; rfl
  | (k, a) :: as, (l, b) :: bs =>
    simp [entryKeys, compareEntries, compare_listedKey_append k l, compare_listedKey_append a b,
      compare_entryKeys_append as bs, Ordering.then_assoc]

end

/-- Values compare like their keys, each set taken as it is listed. -/
theorem compareListed_eq_compare (a b : Value) :
    compareListed a b = compare a.listedKey b.listedKey := by
  simpa using (compare_listedKey_append a b [] []).symm

/-- The sort key of a value. -/
def sortKey (v : Value) : List Int :=
  v.canonical.listedKey

/-- **Values compare like their sort keys**, from left to right. -/
theorem cmp_eq_compare_sortKey (a b : Value) : a.cmp b = compare a.sortKey b.sortKey :=
  compareListed_eq_compare a.canonical b.canonical

end Value

end BoundedLogic
