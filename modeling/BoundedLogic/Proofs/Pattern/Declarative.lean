import BoundedLogic.Pattern.Matching
import BoundedLogic.Proofs.Enumeration.Orderings
import BoundedLogic.Proofs.Scope.Agreement

set_option relaxedAutoImplicit false
set_option autoImplicit false

/-!
# What patterns accept

What it means that a pattern accepts a value can be said without listing ways to match: a name binds
the value it meets, the parts of a value are accepted one by one, and of a set it only matters in
which orders its elements may be taken. The bindings of one name have to be equal in the end.

Matching drops a way as soon as a name has two unequal values in it. Nothing is lost by that, as
what disagrees in a part disagrees in the whole; and nothing wrong is left, as the whole is looked
at last.

## Main definitions

* `BoundedLogic.Pattern.Binds` — a pattern accepts a value, with the bindings this makes.
* `BoundedLogic.Pattern.BindsEach` — the same for a list of patterns and a list of values.
* `BoundedLogic.Pattern.Fits` — a match binds the names of a pattern.

## Main results

* `BoundedLogic.Pattern.mem_matchings_iff` — the ways a value matches a pattern are those in which
  the pattern accepts it and repeated names agree.
* `BoundedLogic.Pattern.fits_of_mem_matchings` — they bind the names of the pattern, in order.
-/

namespace BoundedLogic

namespace Pattern

mutual

/-- The pattern accepts the value and binds the names of the match, from left to right. The elements
of a set can be taken in the orders that `order` allows for the list of its elements. -/
inductive Binds (order : List Value → List Value → Prop) : Pattern → Value → Match → Prop
  /-- A name is bound to the value. -/
  | name (n : String) (v : Value) : Binds order (.name n) v (.single n v)
  /-- Nothing is bound to the value. -/
  | ignore (v : Value) : Binds order .ignore v .empty
  /-- A literal accepts equal values. -/
  | literal {l v : Value} (h : (l == v) = true) : Binds order (.literal l) v .empty
  /-- The items of a tuple are accepted one by one. -/
  | tuple {ps : List Pattern} {vs : List Value} {m : Match} (h : BindsEach order ps vs m) :
    Binds order (.tuple ps) (.tuple vs) m
  /-- The fields of a record of the same name are accepted one by one. -/
  | record {n : String} {ps : List Pattern} {fs : List (String × Value)} {m : Match}
    (h : BindsEach order ps (fs.map Prod.snd) m) : Binds order (.record n ps) (.record n fs) m
  /-- The elements of a set are accepted one by one, in one of the orders. -/
  | set {ps : List Pattern} {vs ws : List Value} {m : Match} (ho : order ws vs)
    (h : BindsEach order ps ws m) : Binds order (.set ps) (.set vs) m
  /-- The items of a sequence are accepted one by one. -/
  | seq {ps : List Pattern} {vs : List Value} {m : Match} (h : BindsEach order ps vs m) :
    Binds order (.seq ps) (.seq vs) m

/-- Each pattern of a list accepts the value at its place in a list as long. -/
inductive BindsEach (order : List Value → List Value → Prop) :
    List Pattern → List Value → Match → Prop
  | nil : BindsEach order [] [] .empty
  | cons {p : Pattern} {ps : List Pattern} {v : Value} {vs : List Value} {m n : Match}
    (h : Binds order p v m) (hs : BindsEach order ps vs n) :
    BindsEach order (p :: ps) (v :: vs) (m ++ n)

end

variable {order : List Value → List Value → Prop} {allOrders : Bool}

/-- There are as many values as patterns. -/
lemma BindsEach.length_eq {ps : List Pattern} {vs : List Value} {m : Match}
    (h : BindsEach order ps vs m) : ps.length = vs.length := by
  induction ps generalizing vs m with
  | nil =>
    cases h
    rfl
  | cons p ps ih =>
    cases h with
    | cons _ hs => rw [List.length_cons, List.length_cons, ih hs]

/-- What a list of patterns binds is what the first one binds, then what the others bind. -/
lemma bindsEach_cons_iff {p : Pattern} {ps : List Pattern} {v : Value} {vs : List Value}
    {m : Match} :
    BindsEach order (p :: ps) (v :: vs) m ↔
      ∃ n k, Binds order p v n ∧ BindsEach order ps vs k ∧ n ++ k = m := by
  constructor
  · intro h
    cases h with
    | cons hn hk => exact ⟨_, _, hn, hk, rfl⟩
  · rintro ⟨n, k, hn, hk, rfl⟩
    exact .cons hn hk

mutual

/-- A pattern binds its names, as often as they occur in it and in the same order. -/
lemma Binds.map_fst_pairs {p : Pattern} {v : Value} {m : Match} (h : Binds order p v m) :
    m.pairs.map Prod.fst = p.occurrences := by
  cases h with
  | name | ignore | literal => rfl
  | tuple h | record h | set _ h | seq h => exact BindsEach.map_fst_pairs h

/-- The same for a list of patterns. -/
lemma BindsEach.map_fst_pairs {ps : List Pattern} {vs : List Value} {m : Match}
    (h : BindsEach order ps vs m) : m.pairs.map Prod.fst = listOccurrences ps := by
  cases h with
  | nil => rfl
  | cons h hs =>
    rw [Match.pairs_append, List.map_append, Binds.map_fst_pairs h, BindsEach.map_fst_pairs hs,
      listOccurrences]

end

/-! ### The orders that are tried -/

/-- The orders that are tried for the elements of a set are those that `order` allows. -/
def Tries (allOrders : Bool) (order : List Value → List Value → Prop) : Prop :=
  ∀ vs ws, (ws ∈ if allOrders then orderings vs else [vs]) ↔ order ws vs

/-- All orders are tried, -/
lemma tries_perm : Tries true List.Perm :=
  fun _ _ => mem_orderings_iff

/-- or only that in which the set lists its elements. -/
lemma tries_eq : Tries false Eq :=
  fun _ _ => List.mem_singleton

/-- No element is lost in an order that is tried. -/
lemma Tries.length_eq (ho : Tries allOrders order) {vs ws : List Value} (h : order ws vs) :
    ws.length = vs.length := by
  have hws := (ho vs ws).mpr h
  cases allOrders with
  | true => exact (mem_orderings_iff.mp hws).length_eq
  | false => rw [List.mem_singleton.mp hws]

/-! ### Matching part by part -/

/-- The ways of `done` continued by those of `next`, as far as they agree. -/
lemma mem_joinConsistent_iff {done next : List Match} {m : Match} :
    m ∈ joinConsistent done next ↔ ∃ d ∈ done, ∃ n ∈ next, d ++ n = m ∧ m.Agrees := by
  simp only [joinConsistent, List.mem_flatMap, List.mem_filter, List.mem_map,
    Match.isConsistent_iff]
  constructor
  · rintro ⟨d, hd, ⟨n, hn, rfl⟩, hagrees⟩
    exact ⟨d, hd, n, hn, rfl, hagrees⟩
  · rintro ⟨d, hd, n, hn, rfl, hagrees⟩
    exact ⟨d, hd, ⟨n, hn, rfl⟩, hagrees⟩

/-- The ways to match a pattern are those in which it accepts the value and that agree. -/
def MatchesWhatItBinds (allOrders : Bool) (order : List Value → List Value → Prop) (p : Pattern) :
    Prop :=
  ∀ v m, m ∈ p.matchings allOrders v ↔ Binds order p v m ∧ m.Agrees

/-- The ways in which a list of values matches a list of patterns after others.

**Proof sketch.** Induction on the patterns. Ways before the first pattern are continued by those in
which it accepts the first value, as far as these agree; the other patterns continue these. A way
that is dropped disagrees, and so does every match that continues it. -/
lemma mem_matchingsFrom_iff {ps : List Pattern}
    (hps : ∀ p ∈ ps, MatchesWhatItBinds allOrders order p) {done : List Match}
    (hdone : ∀ d ∈ done, d.Agrees) {vs : List Value} {m : Match} :
    m ∈ matchingsFrom allOrders ps done vs ↔
      ∃ d ∈ done, ∃ n, BindsEach order ps vs n ∧ d ++ n = m ∧ m.Agrees := by
  induction ps generalizing done vs with
  | nil =>
    cases vs with
    | nil =>
      rw [matchingsFrom]
      constructor
      · intro hm
        exact ⟨m, hm, .empty, .nil, m.append_empty, hdone m hm⟩
      · rintro ⟨d, hd, n, ⟨⟩, rfl, -⟩
        rwa [d.append_empty]
    | cons v vs =>
      constructor
      · intro hm
        simp [matchingsFrom] at hm
      · rintro ⟨d, -, n, h, -⟩
        cases h
  | cons p ps ih =>
    cases vs with
    | nil =>
      constructor
      · intro hm
        simp [matchingsFrom] at hm
      · rintro ⟨d, -, n, h, -⟩
        cases h
    | cons v vs =>
      have hjoin : ∀ d ∈ joinConsistent done (matchings allOrders p v), d.Agrees := by
        intro d hd
        obtain ⟨-, -, -, -, -, hagrees⟩ := mem_joinConsistent_iff.mp hd
        exact hagrees
      have hp := hps p List.mem_cons_self
      have hrest := fun q hq => hps q (List.mem_cons_of_mem p hq)
      rw [matchingsFrom_cons, ih hrest hjoin]
      constructor
      · rintro ⟨e, he, k, hk, rfl, hagrees⟩
        obtain ⟨d, hd, n, hn, rfl, -⟩ := mem_joinConsistent_iff.mp he
        have hbinds := ((hp v n).mp hn).1
        exact ⟨d, hd, n ++ k, .cons hbinds hk, (d.append_assoc n k).symm, hagrees⟩
      · rintro ⟨d, hd, nk, heach, rfl, hagrees⟩
        obtain ⟨n, k, hn, hk, rfl⟩ := bindsEach_cons_iff.mp heach
        rw [← d.append_assoc n k] at hagrees
        have hjoined := hagrees.of_append.1
        have hmatch := (hp v n).mpr ⟨hn, hjoined.of_append.2⟩
        exact ⟨d ++ n, mem_joinConsistent_iff.mpr ⟨d, hd, n, hmatch, rfl, hjoined⟩, k, hk,
          d.append_assoc n k, by rwa [← d.append_assoc n k]⟩

/-- The ways to match a list of patterns with nothing before it. -/
lemma mem_matchingsFrom_empty_iff {ps : List Pattern}
    (hps : ∀ p ∈ ps, MatchesWhatItBinds allOrders order p) {vs : List Value} {m : Match} :
    m ∈ matchingsFrom allOrders ps [.empty] vs ↔ BindsEach order ps vs m ∧ m.Agrees := by
  rw [mem_matchingsFrom_iff hps (by simpa using Match.agrees_empty)]
  simp [Match.empty_append]

/-- Parts are matched only if there are as many of them as of the values; otherwise they accept
nothing. -/
lemma mem_parts_iff {ps : List Pattern} (hps : ∀ p ∈ ps, MatchesWhatItBinds allOrders order p)
    {vs : List Value} {m : Match} :
    (m ∈ if ps.length = vs.length then matchingsFrom allOrders ps [.empty] vs else []) ↔
      BindsEach order ps vs m ∧ m.Agrees := by
  split
  case isTrue => exact mem_matchingsFrom_empty_iff hps
  case isFalse hlen =>
    simp only [List.not_mem_nil, false_iff, not_and]
    exact fun heach => absurd heach.length_eq hlen

/-- The same for the elements of a set, which are matched in every order that is tried. -/
lemma mem_setParts_iff (ho : Tries allOrders order) {ps : List Pattern}
    (hps : ∀ p ∈ ps, MatchesWhatItBinds allOrders order p) {vs : List Value} {m : Match} :
    (m ∈ if ps.length = vs.length then
        (if allOrders then orderings vs else [vs]).flatMap fun ws =>
          matchingsFrom allOrders ps [.empty] ws
      else []) ↔ (∃ ws, order ws vs ∧ BindsEach order ps ws m) ∧ m.Agrees := by
  have hflat : (m ∈ (if allOrders then orderings vs else [vs]).flatMap fun ws =>
      matchingsFrom allOrders ps [.empty] ws) ↔
        (∃ ws, order ws vs ∧ BindsEach order ps ws m) ∧ m.Agrees := by
    simp only [List.mem_flatMap, ho vs, mem_matchingsFrom_empty_iff hps, ← and_assoc,
      exists_and_right]
  split
  case isTrue => exact hflat
  case isFalse hlen =>
    simp only [List.not_mem_nil, false_iff]
    rintro ⟨⟨ws, hws, heach⟩, -⟩
    exact hlen (heach.length_eq.trans (ho.length_eq hws))

/-! ### Matching and accepting -/

/-- **Matching is accepting**, when the orders tried for a set are those that are allowed.

**Proof sketch.** Induction on the pattern. A value that is not of the shape the pattern asks for is
not accepted, and has no way to match. The parts of a value of that shape are matched one by one
(`mem_parts_iff`), those of a set in every order that is tried (`mem_setParts_iff`). -/
theorem matchesWhatItBinds (ho : Tries allOrders order) (p : Pattern) :
    MatchesWhatItBinds allOrders order p := by
  intro v m
  match p with
  | .name n =>
    rw [matchings, List.mem_singleton]
    constructor
    · rintro rfl
      exact ⟨.name n v, Match.agrees_single n v⟩
    · rintro ⟨⟨⟩, -⟩
      rfl
  | .ignore =>
    rw [matchings, List.mem_singleton]
    constructor
    · rintro rfl
      exact ⟨.ignore v, Match.agrees_empty⟩
    · rintro ⟨⟨⟩, -⟩
      rfl
  | .literal l =>
    rw [matchings]
    constructor
    · intro h
      by_cases hlv : (l == v) = true
      · rw [if_pos hlv, List.mem_singleton] at h
        exact ⟨h ▸ .literal hlv, h ▸ Match.agrees_empty⟩
      · rw [if_neg hlv] at h
        cases h
    · rintro ⟨h, -⟩
      cases h with
      | literal hlv => exact if_pos hlv ▸ List.mem_singleton_self _
  | .tuple ps =>
    have hps : ∀ q ∈ ps, MatchesWhatItBinds allOrders order q := fun q hq =>
      matchesWhatItBinds ho q
    cases v with
    | tuple vs =>
      rw [matchings, mem_parts_iff hps]
      exact and_congr_left' ⟨.tuple, fun | .tuple h => h⟩
    | _ => exact ⟨fun h => by simp [matchings] at h, fun h => by cases h.1⟩
  | .seq ps =>
    have hps : ∀ q ∈ ps, MatchesWhatItBinds allOrders order q := fun q hq =>
      matchesWhatItBinds ho q
    cases v with
    | seq vs =>
      rw [matchings, mem_parts_iff hps]
      exact and_congr_left' ⟨.seq, fun | .seq h => h⟩
    | _ => exact ⟨fun h => by simp [matchings] at h, fun h => by cases h.1⟩
  | .record k ps =>
    have hps : ∀ q ∈ ps, MatchesWhatItBinds allOrders order q := fun q hq =>
      matchesWhatItBinds ho q
    cases v with
    | record n fs =>
      rw [matchings]
      by_cases hkn : k = n
      · subst hkn
        simp only [true_and]
        rw [← List.length_map Prod.snd, mem_parts_iff hps]
        exact and_congr_left' ⟨.record, fun | .record h => h⟩
      · rw [if_neg fun h => hkn h.1]
        constructor
        · intro h
          cases h
        · rintro ⟨h, -⟩
          cases h
          exact absurd rfl hkn
    | _ => exact ⟨fun h => by simp [matchings] at h, fun h => by cases h.1⟩
  | .set ps =>
    have hps : ∀ q ∈ ps, MatchesWhatItBinds allOrders order q := fun q hq =>
      matchesWhatItBinds ho q
    cases v with
    | set vs =>
      rw [matchings, mem_setParts_iff ho hps]
      exact and_congr_left' ⟨fun ⟨ws, hws, h⟩ => .set hws h, fun | .set hws h => ⟨_, hws, h⟩⟩
    | _ => exact ⟨fun h => by simp [matchings] at h, fun h => by cases h.1⟩

/-- **The ways a value matches a pattern** are those in which the pattern accepts it and all values
of a name are equal: if every ordering is tried, with the elements of each set taken in any order,
and otherwise with the elements of each set taken as they are listed. -/
theorem mem_matchings_iff (p : Pattern) (v : Value) (m : Match) :
    (m ∈ p.matchings true v ↔ Binds List.Perm p v m ∧ m.Agrees) ∧
      (m ∈ p.matchings false v ↔ Binds Eq p v m ∧ m.Agrees) :=
  ⟨matchesWhatItBinds tries_perm p v m, matchesWhatItBinds tries_eq p v m⟩

/-- The match binds the names of the pattern, as often as they occur and in the same order, and
equal names to equal values. -/
structure Fits (p : Pattern) (m : Match) : Prop where
  /-- The names are those of the pattern. -/
  map_fst_pairs : m.pairs.map Prod.fst = p.occurrences
  /-- The values of one name are equal. -/
  agrees : m.Agrees

/-- **What a pattern finds fits it**, whatever its shape and whatever orders are tried. -/
theorem fits_of_mem_matchings {p : Pattern} {v : Value} {m : Match}
    (h : m ∈ p.matchings allOrders v) : p.Fits m := by
  cases allOrders with
  | true =>
    obtain ⟨hbinds, hagrees⟩ := (matchesWhatItBinds tries_perm p v m).mp h
    exact ⟨hbinds.map_fst_pairs, hagrees⟩
  | false =>
    obtain ⟨hbinds, hagrees⟩ := (matchesWhatItBinds tries_eq p v m).mp h
    exact ⟨hbinds.map_fst_pairs, hagrees⟩

/-- What fits a pattern binds no other names. -/
lemma Fits.mem_names {p : Pattern} {m : Match} (h : p.Fits m) {b : Named} (hb : b ∈ m.pairs) :
    b.1 ∈ p.names := by
  rw [names, List.mem_eraseDups, ← h.map_fst_pairs]
  exact List.mem_map_of_mem hb

end Pattern

end BoundedLogic
