set_option relaxedAutoImplicit false
set_option autoImplicit false

/-!
# Why subsets were not enumerated

## Main definitions

* `BoundedLogic.EnumerationError` — the two causes, with their message, code and advice.
-/

namespace BoundedLogic

/-- Why the subsets of a set were not enumerated. -/
inductive EnumerationError where
  /-- The set has more elements than the limit allows, or more than can be counted with. -/
  | capacityExceeded (size limit : Nat)
  /-- The enumeration was told to terminate. -/
  | cancelled (size : Nat)
  deriving DecidableEq, Repr

namespace EnumerationError

/-- The message of an error. -/
def message : EnumerationError → String
  | .capacityExceeded size limit =>
    "cannot evaluate power set of size " ++ Nat.repr size ++ " (limit is " ++ Nat.repr limit ++ ")"
  | .cancelled size => "interrupted power set of size " ++ Nat.repr size

/-- The diagnostic code of an error. -/
def code : EnumerationError → String
  | .capacityExceeded _ _ => "quantor::values::capacity_exceeded"
  | .cancelled _ => "quantor::values::cancelled"

/-- What can be done about an error. -/
def help : EnumerationError → Option String
  | .capacityExceeded _ _ =>
    some "raise `powerset_limit` in the engine configuration or shrink the domain"
  | .cancelled _ => none

end EnumerationError

end BoundedLogic
