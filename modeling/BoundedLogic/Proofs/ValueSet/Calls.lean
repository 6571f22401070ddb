import BoundedLogic.Proofs.ValueSet.Extensional

set_option relaxedAutoImplicit false
set_option autoImplicit false

/-!
# Sets under sequences of calls

A program makes sets, adds to them, rearranges, copies and reads them, in any order. Reading a set
can change what is known of it: the increasing order is worked out by the first call that needs it,
and kept until an element is added, also in copies. Here the sets of a program are followed through
all its calls, each with the values that were ever added to it: it stays valid, it loses none of
these values, and until it is rearranged it holds them in the order of their first addition.

## Main definitions

* `BoundedLogic.TracedSet` — a set with the history of its elements.
* `BoundedLogic.SetCall` — the calls, `BoundedLogic.SetCall.step` — what one of them does,
  `BoundedLogic.SetCall.run` — the sets after a sequence of them.
* `BoundedLogic.TracedSet.Sound` — the set fits its history.

## Main results

* `BoundedLogic.SetCall.sound_step` — every call keeps all sets sound.
* `BoundedLogic.SetCall.invariant_of_mem_run` — what holds of every set after any calls.
-/

namespace BoundedLogic

/-- A set with its history, which a copy takes over from the set that it is a copy of. -/
structure TracedSet where
  /-- The set as it stands. -/
  set : ValueSet
  /-- The values added to it so far, in order, also those that were there already. -/
  added : List Value
  /-- Has it been rearranged in increasing order? -/
  rearranged : Bool

/-! ### What calls do to a set -/

namespace TracedSet

/-- A set collected from a list of values. -/
def collect (vs : List Value) : TracedSet :=
  ⟨.ofList vs, vs, false⟩

/-- The set with a value added. -/
def insert (t : TracedSet) (v : Value) : TracedSet :=
  { t with set := t.set.insert v, added := t.added ++ [v] }

/-- The set with values added one after another. -/
def extend (t : TracedSet) (vs : List Value) : TracedSet :=
  { t with set := t.set.extend vs, added := t.added ++ vs }

/-- The set of the elements of two sets: a copy of the first, to which those of the second are
added. -/
def union (s t : TracedSet) : TracedSet :=
  { s with set := s.set.union t.set, added := s.added ++ t.set.elements }

/-- The set after its increasing order was asked for. -/
def withOrder (t : TracedSet) : TracedSet :=
  { t with set := t.set.withOrder }

/-- The set rearranged in increasing order. -/
def sort (t : TracedSet) : TracedSet :=
  { t with set := t.set.sort, rearranged := true }

/-- The set fits its history. -/
structure Sound (t : TracedSet) : Prop where
  /-- The set is valid. -/
  valid : t.set.IsValid
  /-- Its elements are, up to equality, the values added. -/
  among : ∀ v : Value, v.Among t.set.elements ↔ v.Among t.added
  /-- If it was not rearranged, its elements are the first occurrences of the values added. -/
  arrival : t.rearranged = false → t.set.elements = Value.firstOccurrences t.added

variable {s t : TracedSet}

lemma Sound.extend (h : t.Sound) (vs : List Value) : (t.extend vs).Sound where
  valid := h.valid.extend vs
  among v := by
    show v.Among (t.set.extend vs).elements ↔ v.Among (t.added ++ vs)
    rw [h.valid.among_elements_extend, h.among, Value.among_append]
  arrival ht := h.valid.elements_extend (h.arrival ht) vs

lemma sound_collect (vs : List Value) : (collect vs).Sound :=
  have hempty : Sound ⟨.empty, [], false⟩ :=
    ⟨ValueSet.isValid_empty, fun _ => .rfl, fun _ => rfl⟩
  hempty.extend vs

lemma Sound.insert (h : t.Sound) (v : Value) : (t.insert v).Sound :=
  h.extend [v]

lemma Sound.union (h : s.Sound) (t : TracedSet) : (s.union t).Sound :=
  h.extend t.set.elements

lemma Sound.withOrder (h : t.Sound) : t.withOrder.Sound where
  valid := h.valid.withOrder
  among := h.among
  arrival := h.arrival

lemma Sound.sort (h : t.Sound) : t.sort.Sound where
  valid := h.valid.sort
  among v := by
    show v.Among t.set.sort.elements ↔ v.Among t.added
    rw [ValueSet.elements_sort, h.valid.among_sorted, h.among]
  arrival := by
    intro ht
    cases ht

end TracedSet

/-! ### Calls -/

/-- A call on the sets of a program, which are numbered in the order in which they were made. -/
inductive SetCall where
  /-- Make an empty set. -/
  | new
  /-- Make a set of the values of a list. -/
  | collect (vs : List Value)
  /-- Make a copy. -/
  | clone (i : Nat)
  /-- Make the union of two sets. -/
  | union (i j : Nat)
  /-- Add a value. -/
  | add (i : Nat) (v : Value)
  /-- Add the values of a list. -/
  | extend (i : Nat) (vs : List Value)
  /-- Rearrange the elements in increasing order. -/
  | sort (i : Nat)
  /-- List the elements in increasing order. -/
  | sorted (i : Nat)
  /-- Hash a set. -/
  | hash (i : Nat)
  /-- Look for a value. -/
  | contains (i : Nat) (v : Value)
  /-- Are two sets equal? -/
  | equal (i j : Nat)
  /-- Compare two sets. -/
  | compare (i j : Nat)

namespace SetCall

/-- The sets after a call on two of them. -/
def onPair (ts : List TracedSet) (i j : Nat) (f : TracedSet → TracedSet → List TracedSet) :
    List TracedSet :=
  match ts[i]?, ts[j]? with
  | some s, some t => f s t
  | _, _ => ts

/-- The sets after the increasing orders of two of them were asked for. -/
def withOrders (ts : List TracedSet) (i j : Nat) : List TracedSet :=
  (ts.modify i .withOrder).modify j .withOrder

/-- The sets after a call. Looking for a value leaves the set as it is; listing, hashing and
comparing leave its increasing order known, but two sets of different sizes are told apart without
it. A call on a set that is not there does nothing. -/
def step (ts : List TracedSet) : SetCall → List TracedSet
  | new => ts ++ [.collect []]
  | collect vs => ts ++ [.collect vs]
  | clone i => ts ++ ts[i]?.toList
  | union i j => onPair ts i j fun s t => ts ++ [s.union t]
  | add i v => ts.modify i (TracedSet.insert · v)
  | extend i vs => ts.modify i (TracedSet.extend · vs)
  | sort i => ts.modify i .sort
  | sorted i => ts.modify i .withOrder
  | hash i => ts.modify i .withOrder
  | contains _ _ => ts
  | equal i j =>
    onPair ts i j fun s t => if s.set.size = t.set.size then withOrders ts i j else ts
  | compare i j => onPair ts i j fun _ _ => withOrders ts i j

/-- The sets after a sequence of calls, from none on. -/
def run (calls : List SetCall) : List TracedSet :=
  calls.foldl step []

/-! ### Calls keep sets sound -/

/-- All sets fit their histories. -/
def AllSound (ts : List TracedSet) : Prop :=
  ∀ t ∈ ts, t.Sound

variable {ts : List TracedSet}

lemma AllSound.getElem? (h : AllSound ts) {i : Nat} {t : TracedSet} (ht : ts[i]? = some t) :
    t.Sound :=
  h t (List.mem_of_getElem? ht)

lemma AllSound.append (h : AllSound ts) {us : List TracedSet} (hu : AllSound us) :
    AllSound (ts ++ us) :=
  List.forall_mem_append.mpr ⟨h, hu⟩

lemma AllSound.concat (h : AllSound ts) {t : TracedSet} (ht : t.Sound) : AllSound (ts ++ [t]) :=
  h.append (List.forall_mem_singleton.mpr ht)

/-- What keeps a set sound can be done to any of them. -/
lemma AllSound.modify (h : AllSound ts) {f : TracedSet → TracedSet}
    (hf : ∀ t, t.Sound → (f t).Sound) (i : Nat) : AllSound (ts.modify i f) := by
  intro t ht
  obtain ⟨k, hk⟩ := List.mem_iff_getElem?.mp ht
  rw [List.getElem?_modify] at hk
  obtain ⟨s, hs, rfl⟩ := Option.map_eq_some_iff.mp hk
  split
  · exact hf s (h.getElem? hs)
  · exact h.getElem? hs

lemma AllSound.onPair (h : AllSound ts) {f : TracedSet → TracedSet → List TracedSet}
    (hf : ∀ s t, s.Sound → t.Sound → AllSound (f s t)) (i j : Nat) :
    AllSound (onPair ts i j f) := by
  unfold SetCall.onPair
  split
  case h_1 s t hs ht => exact hf s t (h.getElem? hs) (h.getElem? ht)
  case h_2 => exact h

lemma AllSound.withOrders (h : AllSound ts) (i j : Nat) : AllSound (withOrders ts i j) :=
  (h.modify (fun _ ht => ht.withOrder) i).modify (fun _ ht => ht.withOrder) j

/-- **One call** keeps all sets sound. -/
theorem sound_step (h : AllSound ts) (call : SetCall) : AllSound (step ts call) := by
  cases call with
  | new => exact h.concat (TracedSet.sound_collect [])
  | collect vs => exact h.concat (TracedSet.sound_collect vs)
  | clone i => exact h.append fun t ht => h.getElem? (Option.mem_toList.mp ht)
  | union i j => exact h.onPair (fun s t hs _ => h.concat (hs.union t)) i j
  | add i v => exact h.modify (fun _ ht => ht.insert v) i
  | extend i vs => exact h.modify (fun _ ht => ht.extend vs) i
  | sort i => exact h.modify (fun _ ht => ht.sort) i
  | sorted i => exact h.modify (fun _ ht => ht.withOrder) i
  | hash i => exact h.modify (fun _ ht => ht.withOrder) i
  | contains i v => exact h
  | equal i j =>
    refine h.onPair (fun s t _ _ => ?_) i j
    split
    case isTrue => exact h.withOrders i j
    case isFalse => exact h
  | compare i j => exact h.onPair (fun _ _ _ _ => h.withOrders i j) i j

/-- **A sequence of calls** keeps all sets sound. -/
theorem sound_foldl_step (h : AllSound ts) (calls : List SetCall) :
    AllSound (calls.foldl step ts) := by
  induction calls generalizing ts with
  | nil => exact h
  | cons call calls ih => exact ih (sound_step h call)

/-- **Every set that calls make** has pairwise unequal elements, which are up to equality the values
ever added to it. Where its increasing order is known, it is a permutation of the positions and
lists the elements in increasing order; binary search in that order finds what a scan finds, and so
membership is the same whether the order is known or not. If the set was not rearranged, its
elements stand in the order of their first addition; rearranging it leaves an equal set, whose
elements increase.

**Proof sketch.** Induction on the calls. Each of them keeps the sets valid and in agreement with
what was added to them. -/
theorem invariant_of_mem_run (calls : List SetCall) {t : TracedSet} (ht : t ∈ run calls) :
    Value.Distinct t.set.elements ∧
    (∀ v, t.set.contains v = true ↔ v.Among t.added) ∧
    (∀ ps, t.set.order = some ps → Value.IsOrderOf t.set.elements ps) ∧
    (∀ v, Value.searchSorted t.set.sorted.toArray v 0 t.set.size =
      t.set.elements.any fun w => w == v) ∧
    (∀ v, t.set.contains v = t.set.elements.any fun w => w == v) ∧
    (t.rearranged = false → t.set.elements = Value.firstOccurrences t.added) ∧
    (t.set.sort == t.set) = true ∧
    Value.Increasing t.set.sort.elements := by
  have hnone : AllSound [] := fun t ht => absurd ht List.not_mem_nil
  have hsound : t.Sound := sound_foldl_step hnone calls t ht
  have hvalid := hsound.valid
  refine ⟨hvalid.distinct, fun v => ?_, hvalid.order, fun v => ?_, fun v => ?_, hsound.arrival,
    hvalid.sort_beq, ?_⟩
  · rw [hvalid.contains_iff, hsound.among]
  · rw [Bool.eq_iff_iff, hvalid.searchSorted_iff, Value.any_beq_iff]
  · rw [Bool.eq_iff_iff, hvalid.contains_iff, Value.any_beq_iff]
  · rw [ValueSet.elements_sort]
    exact hvalid.increasing_sorted

/-- Five calls on one set: `{2, 1}` is made and listed, `1.0` is added in vain and then `3`, and the
set is hashed. -/
theorem invariant_of_mem_run_addTwice :
    ∃ t ∈ run [collect [.int 2, .int 1], sorted 0, add 0 (.real ⟨0x3ff0000000000000⟩),
        add 0 (.int 3), hash 0],
      t.set.size = 3 ∧
        t.set.contains (.real ⟨0x3ff0000000000000⟩) = true ∧
        Value.IsOrderOf t.set.elements t.set.positions ∧
        Value.Increasing t.set.sort.elements := by
  let s : TracedSet := .collect [.int 2, .int 1]
  let t : TracedSet :=
    ((s.withOrder.insert (.real ⟨0x3ff0000000000000⟩)).insert (.int 3)).withOrder
  have ht : t ∈ run [collect [.int 2, .int 1], sorted 0, add 0 (.real ⟨0x3ff0000000000000⟩),
      add 0 (.int 3), hash 0] := List.mem_singleton_self t
  obtain ⟨-, hcontains, horder, -, -, harrival, -, hincreasing⟩ := invariant_of_mem_run _ ht
  have hsize : t.set.size = (Value.firstOccurrences t.added).length :=
    congrArg List.length (harrival rfl)
  refine ⟨t, ht, hsize.trans (by decide +kernel), ?_, horder _ rfl, hincreasing⟩
  exact (hcontains _).mpr (Value.any_beq_iff.mp (by decide +kernel))

end SetCall

end BoundedLogic
