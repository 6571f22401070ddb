import BoundedLogic.Checking.DefaultRange
import BoundedLogic.Proofs.Checking.Substitution
import BoundedLogic.Proofs.Value.HashEquality
import Mathlib.Data.List.Induction

set_option relaxedAutoImplicit false
set_option autoImplicit false

/-!
# Which bindings get a default range

Default ranges are proposed for the bindings of a list of obligations, one binding after another. A
binding is looked at if it is a type binding and no type binding before it has the same text. If its
domain is the name of a type, a range is put under its text, or the text is put among those that are
skipped; if it has another domain, nothing is done.

So a text is accounted for exactly if the first type binding with this text ranges over the name of
a type. Where a type binding over something else is written in the same way and comes first, the
bindings over a type that have this text get no range, and are not reported either.

## Main definitions

* `BoundedLogic.Binding.typeName?` — the type that a type binding ranges over.
* `BoundedLogic.Binding.firstType?` — the type that the first type binding with a text ranges over.
* `BoundedLogic.CheckerConfig.Accounts` — a proposal is right for the bindings seen so far.

## Main results

* `BoundedLogic.CheckerConfig.accounts_foldl` — each step keeps a proposal right.
* `BoundedLogic.CheckerConfig.defaultRanges_account` — what is proposed and what is skipped.
* `BoundedLogic.CheckerConfig.not_defaultRanges_account_for_all` — a binding over a type can be
  missing from both.
-/

namespace BoundedLogic

/-! ### Entries of a table -/

namespace RangeTable

lemma get?_cons (other text : String) (old : ValueSet) (es : List (String × ValueSet)) :
    get? ⟨(other, old) :: es⟩ text = if other = text then some old else get? ⟨es⟩ text := by
  by_cases h : other = text <;> simp [get?, h]

/-- A range that is put into a table is found under its text, and the others where they were. -/
lemma get?_insertSet (t : RangeTable) (text text' : String) (range : ValueSet) :
    (t.insertSet text range).get? text' =
      if text = text' then some range else t.get? text' := by
  rcases t with ⟨es⟩
  rw [insertSet]
  induction es with
  | nil => exact get?_cons text text' range []
  | cons e es ih =>
    obtain ⟨other, old⟩ := e
    rw [insertEntry]
    split
    case h_1 => rw [get?_cons]
    case h_2 heq =>
      obtain rfl := Value.eq_of_compare_string heq
      rw [get?_cons, get?_cons]
      split <;> rfl
    case h_3 hgt =>
      have hne : text ≠ other := by
        rintro rfl
        simp at hgt
      rw [get?_cons, get?_cons, ih]
      by_cases hother : other = text'
      · rw [if_pos hother, if_neg (fun h => hne (h.trans hother.symm)), if_pos hother]
      · rw [if_neg hother, if_neg hother]

end RangeTable

/-! ### Type bindings -/

namespace Binding

variable {σ : Type} {b : Binding σ} {bs : List (Binding σ)} {text name : String}

/-- The type that a binding ranges over, if it is a type binding over the name of a type. -/
def typeName? (b : Binding σ) : Option String :=
  match b.kind, b.domain with
  | .ofType, .type name => some name
  | _, _ => none

lemma typeName?_eq_some_iff :
    b.typeName? = some name ↔ b.kind = .ofType ∧ b.domain = .type name := by
  rw [typeName?]
  split
  case h_1 hkind hdomain => simp [hkind, hdomain]
  case h_2 hother =>
    refine iff_of_false (by simp) fun h => hother name h.1 h.2

/-- Is the binding a type binding with the given text, whatever it ranges over? -/
def IsTypeBinding (text : String) (b : Binding σ) : Prop :=
  b.kind = .ofType ∧ b.text = text

instance (text : String) : DecidablePred (IsTypeBinding text : Binding σ → Prop) :=
  fun _ => inferInstanceAs (Decidable (_ ∧ _))

/-- The type that the first type binding with the given text ranges over. There is none if it has
another domain. -/
def firstType? (bs : List (Binding σ)) (text : String) : Option String :=
  (bs.find? fun b => IsTypeBinding text b).bind typeName?

/-- The texts of the bindings over the name of a type. -/
def typeTexts (bs : List (Binding σ)) : List String :=
  (bs.filter fun b => b.typeName?.isSome).map Binding.text

lemma typeTexts_append (bs bs' : List (Binding σ)) :
    typeTexts (bs ++ bs') = typeTexts bs ++ typeTexts bs' := by
  rw [typeTexts, List.filter_append, List.map_append]
  rfl

/-- A binding that comes last is the first one with its text only if no other has that text. -/
lemma firstType?_concat (bs : List (Binding σ)) (b : Binding σ) (text : String) :
    firstType? (bs ++ [b]) text =
      if ∃ a ∈ bs, IsTypeBinding text a then firstType? bs text
      else if IsTypeBinding text b then b.typeName? else none := by
  rw [firstType?, List.find?_append, firstType?]
  by_cases h : ∃ a ∈ bs, IsTypeBinding text a
  · rw [if_pos h]
    have hsome : (bs.find? fun b => IsTypeBinding text b).isSome := by
      rw [List.find?_isSome]
      simpa using h
    rw [Option.or_of_isSome hsome]
  · have hnone : (bs.find? fun b => IsTypeBinding text b) = none := by
      rw [List.find?_eq_none]
      simpa using h
    rw [if_neg h, hnone, Option.none_or, List.find?_singleton]
    by_cases hb : IsTypeBinding text b <;> simp [hb]

/-- Without a type binding with the text there is no type. -/
lemma firstType?_eq_none (h : ¬ ∃ a ∈ bs, IsTypeBinding text a) : firstType? bs text = none := by
  have hnone : (bs.find? fun b => IsTypeBinding text b) = none := by
    rw [List.find?_eq_none]
    simpa using h
  rw [firstType?, hnone, Option.bind_none]

/-- A binding that is passed over is not the first one with any text. -/
lemma firstType?_concat_of_passed
    (h : ∀ text, IsTypeBinding text b → ∃ a ∈ bs, IsTypeBinding text a) (text : String) :
    firstType? (bs ++ [b]) text = firstType? bs text := by
  rw [firstType?_concat]
  by_cases hseen : ∃ a ∈ bs, IsTypeBinding text a
  · rw [if_pos hseen]
  · rw [if_neg hseen, if_neg (mt (h text) hseen), firstType?_eq_none hseen]

/-- A type binding with a new text is the first one with it. -/
lemma firstType?_concat_of_fresh (hkind : b.kind = .ofType)
    (hfresh : ¬ ∃ a ∈ bs, IsTypeBinding b.text a) (text : String) :
    firstType? (bs ++ [b]) text = if b.text = text then b.typeName? else firstType? bs text := by
  rw [firstType?_concat]
  by_cases hb : b.text = text
  · subst hb
    rw [if_neg hfresh, if_pos ⟨hkind, rfl⟩, if_pos rfl]
  · rw [if_neg hb, if_neg fun htype : IsTypeBinding text b => hb htype.2]
    split
    case isTrue => rfl
    case isFalse hseen => exact (firstType?_eq_none hseen).symm

/-- The first type binding with a text is the first one over the name of a type, if it is one. -/
lemma exists_find?_of_firstType? (h : firstType? bs text = some name) :
    ∃ b, (bs.find? fun b => b.typeName?.isSome && b.text == text) = some b ∧
      b.typeName? = some name ∧ b.text = text ∧ b ∈ bs := by
  obtain ⟨b, hfind, hname⟩ := Option.bind_eq_some_iff.mp h
  obtain ⟨hb, before, after, rfl, hbefore⟩ := List.find?_eq_some_iff_append.mp hfind
  have htype : IsTypeBinding text b := by simpa using hb
  refine ⟨b, List.find?_eq_some_iff_append.mpr ⟨?_, before, after, rfl, fun a ha => ?_⟩, hname,
    htype.2, by simp⟩
  · simp [hname, htype.2]
  · have hother : ¬ IsTypeBinding text a := by simpa using hbefore a ha
    rw [Bool.not_eq_true', Bool.and_eq_false_iff, Option.isSome_eq_false_iff,
      Option.isNone_iff_eq_none, Option.eq_none_iff_forall_ne_some]
    by_cases htext : a.text = text
    · refine .inl fun name' hname' => hother ⟨(typeName?_eq_some_iff.mp hname').1, htext⟩
    · exact .inr (by simpa using htext)

/-- Where all bindings are type bindings over names of types, so are the first ones with their
texts. -/
lemma isSome_firstType? (h : ∀ b ∈ bs, b.typeName?.isSome) (hb : b ∈ bs) :
    (firstType? bs b.text).isSome := by
  obtain ⟨name, hname⟩ := Option.isSome_iff_exists.mp (h b hb)
  have hfound : (bs.find? fun a => IsTypeBinding b.text a).isSome := by
    rw [List.find?_isSome]
    exact ⟨b, hb, decide_eq_true ⟨(typeName?_eq_some_iff.mp hname).1, rfl⟩⟩
  obtain ⟨a, ha⟩ := Option.isSome_iff_exists.mp hfound
  rw [firstType?, ha, Option.bind_some]
  exact h a (List.mem_of_find?_eq_some ha)

end Binding

namespace CheckerConfig

open Binding

variable {σ : Type} {c : CheckerConfig} {shapeOf : String → Option TypeShape} {name : String}

/-! ### Ranges of types -/

/-- A type has a range if its shape is known and has one. -/
lemma rangeOfType_eq_ok_iff {range : ValueSet} :
    c.rangeOfType shapeOf name = .ok range ↔
      ∃ t, shapeOf name = some t ∧ c.defaultRange t = .ok range := by
  rw [rangeOfType]
  cases shapeOf name <;> simp

/-- Otherwise its shape is not known or has none. -/
lemma exists_rangeOfType_eq_error_iff :
    (∃ e, c.rangeOfType shapeOf name = .error e) ↔
      ∀ t, shapeOf name = some t → ∃ e, c.defaultRange t = .error e := by
  rw [rangeOfType]
  cases shapeOf name <;> simp

/-! ### One binding after another -/

/-- The proposal is right for the bindings seen so far. -/
structure Accounts (c : CheckerConfig) (shapeOf : String → Option TypeShape)
    (bs : List (Binding σ)) (p : Proposal) : Prop where
  /-- Seen are the texts of the type bindings. -/
  mem_seen_iff : ∀ text, text ∈ p.seen ↔ ∃ b ∈ bs, IsTypeBinding text b
  /-- The table has the ranges of the types of the first bindings. -/
  get?_eq_some_iff : ∀ text range, p.table.get? text = some range ↔
    ∃ name, firstType? bs text = some name ∧ c.rangeOfType shapeOf name = .ok range
  /-- Skipped are the texts for which there is no such range. -/
  mem_skipped_iff : ∀ text, text ∈ p.skipped ↔
    ∃ name, firstType? bs text = some name ∧ ∃ e, c.rangeOfType shapeOf name = .error e
  /-- They are in the order of the bindings, each once. -/
  inOrder : p.skipped.Pairwise fun text text' =>
    (typeTexts bs).idxOf text < (typeTexts bs).idxOf text'

variable {bs : List (Binding σ)} {p : Proposal} {b : Binding σ}

/-- The skipped texts are those of bindings over the name of a type. -/
lemma Accounts.mem_typeTexts (h : c.Accounts shapeOf bs p) {text : String}
    (htext : text ∈ p.skipped) : text ∈ typeTexts bs := by
  obtain ⟨name, hname, -⟩ := (h.mem_skipped_iff text).mp htext
  obtain ⟨b, -, htype, rfl, hb⟩ := exists_find?_of_firstType? hname
  exact List.mem_map_of_mem (List.mem_filter.mpr ⟨hb, by simp [htype]⟩)

/-- The order of the skipped texts does not depend on the bindings that follow. -/
lemma Accounts.inOrder_append (h : c.Accounts shapeOf bs p) (bs' : List (Binding σ)) :
    p.skipped.Pairwise fun text text' =>
      (typeTexts (bs ++ bs')).idxOf text < (typeTexts (bs ++ bs')).idxOf text' := by
  refine h.inOrder.imp_of_mem fun {text text'} htext htext' hlt => ?_
  rwa [typeTexts_append, List.idxOf_append_of_mem (h.mem_typeTexts htext),
    List.idxOf_append_of_mem (h.mem_typeTexts htext')]

/-- A text that is skipped for the first time comes after the others in the order of the bindings,
as it is the text of the last one only. -/
lemma Accounts.inOrder_concat (h : c.Accounts shapeOf bs p) (hname : b.typeName? = some name)
    (hfresh : ¬ ∃ a ∈ bs, IsTypeBinding b.text a) :
    (p.skipped ++ [b.text]).Pairwise fun text text' =>
      (typeTexts (bs ++ [b])).idxOf text < (typeTexts (bs ++ [b])).idxOf text' := by
  have hnew : b.text ∉ typeTexts bs := by
    intro hmem
    obtain ⟨a, ha, hatext⟩ := List.mem_map.mp hmem
    obtain ⟨habs, hatype⟩ := List.mem_filter.mp ha
    obtain ⟨name', hname'⟩ := Option.isSome_iff_exists.mp hatype
    exact hfresh ⟨a, habs, (typeName?_eq_some_iff.mp hname').1, hatext⟩
  have hlast : typeTexts [b] = [b.text] := by simp [typeTexts, hname]
  rw [List.pairwise_append]
  refine ⟨h.inOrder_append [b], List.pairwise_singleton _ _, fun text hmem text' htext' => ?_⟩
  obtain rfl := List.mem_singleton.mp htext'
  have hold := h.mem_typeTexts hmem
  rw [typeTexts_append, hlast, List.idxOf_append_of_mem hold, List.idxOf_append_of_notMem hnew]
  exact Nat.lt_add_right _ (List.idxOf_lt_length_of_mem hold)

/-- A binding that is not a type binding, or has the text of one before it, changes nothing. -/
lemma Accounts.concat_of_passed (h : c.Accounts shapeOf bs p)
    (hb : b.kind ≠ .ofType ∨ b.text ∈ p.seen) : c.Accounts shapeOf (bs ++ [b]) p := by
  have hpassed : ∀ text, IsTypeBinding text b → ∃ a ∈ bs, IsTypeBinding text a := by
    rintro text ⟨hkind, rfl⟩
    exact (h.mem_seen_iff b.text).mp (hb.resolve_left (not_not_intro hkind))
  have hfirst := firstType?_concat_of_passed hpassed
  refine ⟨fun text => ?_, fun text range => ?_, fun text => ?_, h.inOrder_append [b]⟩
  · rw [h.mem_seen_iff text]
    simp only [List.mem_append, List.mem_singleton, or_and_right, exists_or, exists_eq_left]
    exact (or_iff_left_of_imp (hpassed text)).symm
  · rw [h.get?_eq_some_iff text range, hfirst]
  · rw [h.mem_skipped_iff text, hfirst]

/-- The first type binding with its text is put into the table, or skipped, or neither, by the type
that it ranges over. -/
lemma Accounts.concat_of_fresh (h : c.Accounts shapeOf bs p) (hkind : b.kind = .ofType)
    (hfresh : b.text ∉ p.seen) {table : RangeTable} {skipped : List String}
    (htable : ∀ text range, table.get? text = some range ↔
      if b.text = text then ∃ name, b.typeName? = some name ∧ c.rangeOfType shapeOf name = .ok range
      else p.table.get? text = some range)
    (hskipped : skipped = p.skipped ++ [b.text] ∧
        (∃ name, b.typeName? = some name ∧ ∃ e, c.rangeOfType shapeOf name = .error e) ∨
      skipped = p.skipped ∧
        ¬ ∃ name, b.typeName? = some name ∧ ∃ e, c.rangeOfType shapeOf name = .error e) :
    c.Accounts shapeOf (bs ++ [b]) ⟨table, skipped, p.seen ++ [b.text]⟩ := by
  have hnone : ¬ ∃ a ∈ bs, IsTypeBinding b.text a := mt (h.mem_seen_iff b.text).mpr hfresh
  have htext : ∀ text, IsTypeBinding text b ↔ b.text = text := fun _ => and_iff_right hkind
  have hfirst := firstType?_concat_of_fresh hkind hnone
  have hnotSkipped : b.text ∉ p.skipped := by
    rw [h.mem_skipped_iff, firstType?_eq_none hnone]
    simp
  refine ⟨fun text => ?_, fun text range => ?_, fun text => ?_, ?_⟩
  -- the texts that are seen
  · rw [List.mem_append, h.mem_seen_iff text, List.mem_singleton]
    simp only [List.mem_append, List.mem_singleton, or_and_right, exists_or, exists_eq_left,
      htext text, eq_comm (a := text)]
  -- the table
  · rw [htable, hfirst]
    split
    case isTrue => rfl
    case isFalse => exact h.get?_eq_some_iff text range
  -- the texts that are skipped
  · rw [hfirst]
    rcases hskipped with ⟨rfl, herror⟩ | ⟨rfl, hok⟩
    · rw [List.mem_append, List.mem_singleton, h.mem_skipped_iff text]
      by_cases hb : b.text = text
      · simp [hb, herror]
      · simp [hb, eq_comm (a := text)]
    · by_cases hb : b.text = text
      · subst hb
        rw [if_pos rfl]
        exact iff_of_false hnotSkipped hok
      · rw [if_neg hb]
        exact h.mem_skipped_iff text
  -- their order
  · rcases hskipped with ⟨rfl, name, hname, -⟩ | ⟨rfl, -⟩
    · exact h.inOrder_concat hname hnone
    · exact h.inOrder_append [b]

/-- **One more binding:** a proposal that is right for the bindings before it stays right.

**Proof sketch.** Only a type binding whose text is new is looked at; it is the first one with this
text then, and stays so. -/
theorem Accounts.propose (h : c.Accounts shapeOf bs p) (b : Binding σ) :
    c.Accounts shapeOf (bs ++ [b]) (c.propose shapeOf p b) := by
  rw [CheckerConfig.propose]
  by_cases hpassed : b.kind ≠ .ofType ∨ p.seen.contains b.text = true
  · rw [if_pos hpassed]
    exact h.concat_of_passed (hpassed.imp_right List.contains_iff_mem.mp)
  rw [if_neg hpassed]
  obtain ⟨hkind, hseen⟩ := not_or.mp hpassed
  rw [not_not] at hkind
  have hfresh : b.text ∉ p.seen := mt List.contains_iff_mem.mpr hseen
  have hunset : ∀ range, p.table.get? b.text ≠ some range := by
    intro range
    rw [Ne, h.get?_eq_some_iff, firstType?_eq_none (mt (h.mem_seen_iff b.text).mpr hfresh)]
    simp
  -- Where no range is put under the text, the table is right as it is.
  have hkept : (∀ name range, b.typeName? = some name → c.rangeOfType shapeOf name ≠ .ok range) →
      ∀ text range, p.table.get? text = some range ↔
        if b.text = text then
          ∃ name, b.typeName? = some name ∧ c.rangeOfType shapeOf name = .ok range
        else p.table.get? text = some range := by
    intro hnone text range
    split
    case isTrue hb =>
      subst hb
      exact iff_of_false (hunset range) fun ⟨name, hname, hok⟩ => hnone name range hname hok
    case isFalse => rfl
  split
  case h_1 name hdomain =>
    have hname : b.typeName? = some name := typeName?_eq_some_iff.mpr ⟨hkind, hdomain⟩
    split
    case h_1 range hrange =>
      refine h.concat_of_fresh hkind hfresh (fun text range' => ?_) ?_
      · rw [RangeTable.get?_insertSet]
        split
        case isTrue => simp [hname, hrange]
        case isFalse => rfl
      · exact .inr ⟨rfl, by simp [hname, hrange]⟩
    case h_2 e herror =>
      refine h.concat_of_fresh hkind hfresh (hkept fun name' range hname' => ?_) ?_
      · rw [hname] at hname'
        cases hname'
        simp [herror]
      · exact .inl ⟨rfl, name, hname, e, herror⟩
  case h_2 hother =>
    have hname : b.typeName? = none := by
      rw [Option.eq_none_iff_forall_ne_some]
      exact fun name hname => hother name (typeName?_eq_some_iff.mp hname).2
    refine h.concat_of_fresh hkind hfresh (hkept fun name range hname' => ?_) ?_
    · simp [hname] at hname'
    · exact .inr ⟨rfl, by simp [hname]⟩

/-- **All bindings:** the proposal in the end is right for all of them. -/
theorem accounts_foldl (c : CheckerConfig) (shapeOf : String → Option TypeShape)
    (bs : List (Binding σ)) : c.Accounts shapeOf bs (bs.foldl (c.propose shapeOf) {}) := by
  induction bs using List.reverseRecOn with
  | nil =>
    refine ⟨fun text => ?_, fun text range => ?_, fun text => ?_, .nil⟩
    · simp
    · simp [firstType?, RangeTable.get?, RangeTable.empty]
    · simp [firstType?]
  | append_singleton bs b ih =>
    rw [List.foldl_append]
    exact ih.propose b

/-! ### The ranges of obligations -/

/-- The bindings of a list of obligations, those of nested quantifications included. -/
def allBindings (os : List (Obligation σ)) : List (Binding σ) :=
  os.flatMap Obligation.bindings

/-- What is proposed in the end is right for all bindings of the obligations. -/
lemma accounts_defaultRanges (c : CheckerConfig) (os : List (Obligation σ))
    (shapeOf : String → Option TypeShape) :
    ∃ p, c.Accounts shapeOf (allBindings os) p ∧
      c.defaultRanges os shapeOf = (p.table, p.skipped) :=
  ⟨_, c.accounts_foldl shapeOf (allBindings os), rfl⟩

lemma Accounts.contains_iff (h : c.Accounts shapeOf bs p) (text : String) :
    p.table.contains text = true ↔
      ∃ name, firstType? bs text = some name ∧ ∃ range, c.rangeOfType shapeOf name = .ok range := by
  rw [RangeTable.contains_eq_isSome, Option.isSome_iff_exists]
  simp only [h.get?_eq_some_iff]
  exact ⟨fun ⟨range, name, hname, hrange⟩ => ⟨name, hname, range, hrange⟩,
    fun ⟨name, hname, range, hrange⟩ => ⟨range, name, hname, hrange⟩⟩

/-- A text is accounted for exactly if its first type binding ranges over the name of a type. -/
lemma Accounts.accounted_iff (h : c.Accounts shapeOf bs p) (text : String) :
    p.table.contains text = true ∨ text ∈ p.skipped ↔ (firstType? bs text).isSome := by
  rw [h.contains_iff, h.mem_skipped_iff, Option.isSome_iff_exists]
  constructor
  · rintro (⟨name, hname, -⟩ | ⟨name, hname, -⟩) <;> exact ⟨name, hname⟩
  · rintro ⟨name, hname⟩
    cases hrange : c.rangeOfType shapeOf name with
    | ok range => exact .inl ⟨name, hname, range, hrange⟩
    | error e => exact .inr ⟨name, hname, e, hrange⟩

/-- No text has a range and is skipped. -/
lemma Accounts.not_contains_of_mem_skipped (h : c.Accounts shapeOf bs p) {text : String}
    (htext : text ∈ p.skipped) : ¬ p.table.contains text = true := by
  rw [h.contains_iff]
  rintro ⟨name, hname, range, hrange⟩
  obtain ⟨name', hname', e, herror⟩ := (h.mem_skipped_iff text).mp htext
  rw [hname] at hname'
  cases hname'
  rw [hrange] at herror
  cases herror

/-- **What becomes of the bindings over types** of a list of obligations, however types are known:

* the text of such a binding is a key of the table or skipped exactly if the first type binding with
  this text ranges over the name of a type too; so all texts are accounted for unless a type binding
  over something else is written in the same way;
* no text is both, and none is skipped twice; the skipped ones are in the order of their first
  occurrences among the bindings over types;
* keys and skipped texts are texts of bindings over types;
* the range under a text is the default range of the shape of the type named in the first binding
  over a type with this text; a text is skipped where that shape is not known or has no range. -/
theorem defaultRanges_account (c : CheckerConfig) (os : List (Obligation σ))
    (shapeOf : String → Option TypeShape) :
    let bs := allBindings os
    let table := (c.defaultRanges os shapeOf).1
    let skipped := (c.defaultRanges os shapeOf).2
    (∀ b ∈ bs, b.typeName?.isSome → ((table.contains b.text = true ∨ b.text ∈ skipped) ↔
      (firstType? bs b.text).isSome)) ∧
    (∀ text ∈ skipped, ¬ table.contains text = true) ∧
    skipped.Pairwise (fun text text' =>
      (typeTexts bs).idxOf text < (typeTexts bs).idxOf text') ∧
    (∀ text, table.contains text = true ∨ text ∈ skipped →
      ∃ b ∈ bs, b.typeName?.isSome ∧ b.text = text) ∧
    (∀ text range, table.get? text = some range → ∃ b name t,
      (bs.find? fun b => b.typeName?.isSome && b.text == text) = some b ∧
        b.typeName? = some name ∧ shapeOf name = some t ∧ c.defaultRange t = .ok range) ∧
    (∀ text ∈ skipped, ∃ b name,
      (bs.find? fun b => b.typeName?.isSome && b.text == text) = some b ∧
        b.typeName? = some name ∧
        ∀ t, shapeOf name = some t → ∃ e, c.defaultRange t = .error e) := by
  intro bs table skipped
  obtain ⟨p, h, hp⟩ := accounts_defaultRanges c os shapeOf
  have htable : table = p.table := congrArg Prod.fst hp
  have hskipped : skipped = p.skipped := congrArg Prod.snd hp
  rw [htable, hskipped]
  refine ⟨fun b _ _ => h.accounted_iff b.text,
    fun text htext => h.not_contains_of_mem_skipped htext, h.inOrder,
    fun text htext => ?_, fun text range hget => ?_, fun text htext => ?_⟩
  · obtain ⟨name, hname⟩ := Option.isSome_iff_exists.mp ((h.accounted_iff text).mp htext)
    obtain ⟨b, -, htype, hb, hmem⟩ := exists_find?_of_firstType? hname
    exact ⟨b, hmem, by simp [htype], hb⟩
  · obtain ⟨name, hname, hrange⟩ := (h.get?_eq_some_iff text range).mp hget
    obtain ⟨b, hfind, htype, -⟩ := exists_find?_of_firstType? hname
    obtain ⟨t, hshape, ht⟩ := rangeOfType_eq_ok_iff.mp hrange
    exact ⟨b, name, t, hfind, htype, hshape, ht⟩
  · obtain ⟨name, hname, herror⟩ := (h.mem_skipped_iff text).mp htext
    obtain ⟨b, hfind, htype, -⟩ := exists_find?_of_firstType? hname
    exact ⟨b, name, hfind, htype, exists_rangeOfType_eq_error_iff.mp herror⟩

/-- The obligation `forall x : nat, x : nat & true`, where the first `nat` is a name that has a
value, and only the second one is a type. -/
def twoNats : Obligation Unit where
  number := 1
  kind := "subtype"
  claim :=
    { quantifier := .universal
      bindings := [{ patterns := [.name "x"], kind := .ofType, domain := .name "nat" },
        { patterns := [.name "x"], kind := .ofType, domain := .type "nat" }]
      body := .host fun _ => pure (.bool true) }

/-- Not every binding over a type is accounted for: the second one of `twoNats` has a type of known
shape, but has no range and is not skipped. -/
theorem not_defaultRanges_account_for_all :
    ¬ ∀ (os : List (Obligation Unit)) (shapeOf : String → Option TypeShape),
      ∀ b ∈ allBindings os, b.typeName?.isSome →
        ((({} : CheckerConfig).defaultRanges os shapeOf).1.contains b.text = true ∨
          b.text ∈ (({} : CheckerConfig).defaultRanges os shapeOf).2) := by
  intro h
  have hlast := h [twoNats] (fun _ => some .nat)
    { patterns := [.name "x"], kind := .ofType, domain := .type "nat" } (by simp [allBindings,
      twoNats, Obligation.bindings, Quantification.allBindings, Predicate.bindings]) rfl
  have hnone : ({} : CheckerConfig).defaultRanges [twoNats] (fun _ => some .nat) = (.empty, []) :=
    rfl
  rw [hnone] at hlast
  simp [RangeTable.contains, RangeTable.empty] at hlast

end CheckerConfig

end BoundedLogic
