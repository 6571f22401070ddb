import BoundedLogic.Enumeration.Permutation
import BoundedLogic.Pattern.Basic
import BoundedLogic.Scope.Match

set_option relaxedAutoImplicit false
set_option autoImplicit false

/-!
# Matching values against patterns

A value can match a pattern in several ways, as a set pattern does not say which of its parts
accepts which element. All ways are listed; a value that does not match has none. Where only the
order in which a set lists its elements is tried, there is at most one way.

The parts of a pattern are matched from left to right. Every way found so far is continued by every
way of the next part, and a continuation that gives a name two unequal values is dropped at once.
Parts are not matched in vain: not at all if there are more or fewer of them than of the values, and
no longer once no way is left.

## Main definitions

* `BoundedLogic.Pattern.matchings` — every way a value matches a pattern.
* `BoundedLogic.Pattern.matchingsFrom` — the same for a list of values and a list of patterns.
-/

namespace BoundedLogic

namespace Pattern

/-- The ways of `done`, each followed by each way of `next`, as far as repeated names agree. -/
def joinConsistent (done next : List Match) : List Match :=
  done.flatMap fun m => (next.map fun n => m ++ n).filter Match.isConsistent

mutual

/-- Every way a value matches a pattern. With `allOrders` a set pattern tries every ordering of the
elements, otherwise only the one in which the set lists them. -/
def matchings (allOrders : Bool) : Pattern → Value → List Match
  | .name n, v => [.single n v]
  | .ignore, _ => [.empty]
  | .literal l, v => if l == v then [.empty] else []
  | .tuple ps, .tuple vs =>
    if ps.length = vs.length then matchingsFrom allOrders ps [.empty] vs else []
  | .seq ps, .seq vs =>
    if ps.length = vs.length then matchingsFrom allOrders ps [.empty] vs else []
  | .record m ps, .record n fs =>
    if m = n ∧ ps.length = fs.length then
      matchingsFrom allOrders ps [.empty] (fs.map Prod.snd)
    else
      []
  | .set ps, .set vs =>
    if ps.length = vs.length then
      (if allOrders then orderings vs else [vs]).flatMap fun ws =>
        matchingsFrom allOrders ps [.empty] ws
    else
      []
  | _, _ => []

/-- Every way a list of values matches a list of patterns as long, after the ways of the patterns
before these. Where there are none of those, the patterns are not looked at. -/
def matchingsFrom (allOrders : Bool) : List Pattern → List Match → List Value → List Match
  | [], done, [] => done
  | p :: ps, done, v :: vs =>
    if done.isEmpty then []
    else matchingsFrom allOrders ps (joinConsistent done (matchings allOrders p v)) vs
  | _, _, _ => []

end

/-! ### Matching part by part -/

variable {allOrders : Bool}

/-- Where no way is left none is found. -/
theorem matchingsFrom_none (ps : List Pattern) (vs : List Value) :
    matchingsFrom allOrders ps [] vs = [] := by
  cases ps <;> cases vs <;> simp [matchingsFrom]

/-- The ways so far are continued by those of the next part. That no part is looked at in vain does
not show in the result. -/
theorem matchingsFrom_cons (p : Pattern) (ps : List Pattern) (done : List Match) (v : Value)
    (vs : List Value) :
    matchingsFrom allOrders (p :: ps) done (v :: vs) =
      matchingsFrom allOrders ps (joinConsistent done (matchings allOrders p v)) vs := by
  rw [matchingsFrom]
  cases done with
  | nil => exact (matchingsFrom_none ps vs).symm
  | cons => rfl

/-- More values than patterns do not match, -/
theorem matchingsFrom_nil_cons (done : List Match) (v : Value) (vs : List Value) :
    matchingsFrom allOrders [] done (v :: vs) = [] := by
  simp [matchingsFrom]

/-- nor do fewer. -/
theorem matchingsFrom_cons_nil (p : Pattern) (ps : List Pattern) (done : List Match) :
    matchingsFrom allOrders (p :: ps) done [] = [] := by
  simp [matchingsFrom]

end Pattern

end BoundedLogic
