import BoundedLogic.Checking.Report
import Mathlib.Tactic.Lemma

set_option relaxedAutoImplicit false
set_option autoImplicit false

/-!
# Two renderings of a counterexample

A counterexample has a text of its own, in which the frames are separated and each frame separates
its entries; frames that bind nothing are left out. A report on an obligation that was found false
shows the same counterexample, but out of a list of all entries that was made when the frames were
gone through. Both are the same text.

## Main definitions

* `BoundedLogic.Report.failedText` — a report on an obligation found false, up to its
  counterexample.

## Main results

* `BoundedLogic.commaSeparated_groups` — parts can be separated in groups.
* `BoundedLogic.Counterexample.text_eq` — the text of a counterexample lists its entries.
* `BoundedLogic.Report.text_ofCounterexample` — a report shows the text of the counterexample.
-/

namespace BoundedLogic

/-! ### Groups of parts -/

/-- If there is nothing but empty groups, there are no parts. -/
lemma filter_groups_eq_nil_iff {pss : List (List String)} :
    (pss.filter fun ps => !ps.isEmpty) = [] ↔ pss.flatten = [] := by
  simp [List.filter_eq_nil_iff, List.flatten_eq_nil_iff]

/-- **Parts can be separated in groups**, and then the groups from each other, if those without
parts are left out.

**Proof sketch.** Induction on the groups. There is a separator after the first group in the one
text if there is a later group that is not left out, and in the other if there is a later part. -/
theorem commaSeparated_groups (pss : List (List String)) :
    commaSeparated ((pss.filter fun ps => !ps.isEmpty).map commaSeparated) =
      commaSeparated pss.flatten := by
  induction pss with
  | nil => rfl
  | cons ps pss ih =>
    by_cases hps : ps = []
    · subst hps
      rw [List.filter_cons_of_neg (by simp), List.flatten_cons, List.nil_append]
      exact ih
    · rw [List.filter_cons_of_pos (by simpa using hps), List.map_cons, List.flatten_cons]
      -- is there a part in a later group?
      by_cases hlater : pss.flatten = []
      · rw [filter_groups_eq_nil_iff.mpr hlater, hlater, List.map_nil, List.append_nil]
        exact String.intercalate_singleton
      · have hgroups : (pss.filter fun ps => !ps.isEmpty).map commaSeparated ≠ [] :=
          fun h => hlater (filter_groups_eq_nil_iff.mp (List.map_eq_nil_iff.mp h))
        have hrest : ", ".intercalate ((pss.filter fun ps => !ps.isEmpty).map commaSeparated) =
            ", ".intercalate pss.flatten := ih
        rw [commaSeparated, String.intercalate_cons_of_ne_nil hgroups, hrest, commaSeparated,
          commaSeparated, String.intercalate_append_of_ne_nil hps hlater]

/-! ### The entries of a counterexample -/

namespace Counterexample

variable {c : Counterexample}

/-- The texts of the entries of a frame, of which there are none if it binds nothing. -/
lemma isEmpty_map_bindingText (f : Frame) :
    (f.bindings.map Frame.bindingText).isEmpty = f.isEmpty := by
  rw [List.isEmpty_map, Frame.bindings, List.isEmpty_map, Frame.isEmpty]

/-- **The text of a counterexample** lists the entries of all its frames. -/
theorem text_eq (c : Counterexample) :
    c.text = commaSeparated (c.bindings.map Frame.bindingText) := by
  have hgroups := commaSeparated_groups (c.frames.map fun f => f.bindings.map Frame.bindingText)
  rw [List.filter_map, List.map_map] at hgroups
  rw [text, bindings, List.map_flatMap, List.flatMap_def, ← hgroups]
  refine congrArg (fun fs : List Frame => commaSeparated (fs.map Frame.text)) ?_
  refine List.filter_congr fun f _ => ?_
  rw [Function.comp_apply, isEmpty_map_bindingText]

/-- There are no entries if no frame binds anything. -/
lemma bindings_eq_nil_iff : c.bindings = [] ↔ ∀ f ∈ c.frames, f.isEmpty = true := by
  simp [bindings, Frame.bindings, Frame.isEmpty, List.flatMap_eq_nil_iff]

end Counterexample

/-! ### Reports -/

namespace Report

/-- The text of a report on an obligation that was found false, without any counterexample. -/
def failedText (r : Report) : String :=
  "PO# " ++ Nat.repr r.number ++ ", FAILED" ++ (" in " ++ r.seconds.fixedText 3 ++ "s")

/-- What a report shows of a counterexample: its text, or nothing if no frame binds anything. -/
lemma counterexampleText_bindings (c : Counterexample) :
    counterexampleText c.bindings =
      if ∀ f ∈ c.frames, f.isEmpty = true then "" else ": Counterexample: " ++ c.text := by
  rw [c.text_eq]
  cases hbs : c.bindings with
  | nil =>
    rw [if_pos (Counterexample.bindings_eq_nil_iff.mp hbs)]
    rfl
  | cons b bs =>
    rw [if_neg (mt Counterexample.bindings_eq_nil_iff.mpr (by simp [hbs]))]
    rfl

/-- **A report shows the text of the counterexample**, for every report and every counterexample,
whichever of its frames bind nothing. The text of the counterexample comes after the words that
announce it, and both are left out if and only if every frame binds nothing. -/
theorem text_ofCounterexample (r : Report) (c : Counterexample) :
    ({ r with outcome := .ofCounterexample c } : Report).text =
      r.failedText ++
        (if ∀ f ∈ c.frames, f.isEmpty = true then "" else ": Counterexample: " ++ c.text) ∧
    (({ r with outcome := .ofCounterexample c } : Report).text = r.failedText ↔
      ∀ f ∈ c.frames, f.isEmpty = true) := by
  have htext : ({ r with outcome := .ofCounterexample c } : Report).text =
      r.failedText ++ counterexampleText c.bindings := rfl
  rw [htext, counterexampleText_bindings]
  refine ⟨rfl, ?_⟩
  split
  case isTrue hempty => exact ⟨fun _ => hempty, fun _ => String.append_empty⟩
  case isFalse hfull => simp [hfull]

end Report

end BoundedLogic
