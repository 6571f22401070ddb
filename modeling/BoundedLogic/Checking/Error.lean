import BoundedLogic.Enumeration.Error

set_option relaxedAutoImplicit false
set_option autoImplicit false

/-!
# Why a check could not be set up

## Main definitions

* `BoundedLogic.CheckError` — the causes, with their message, code and advice.
-/

namespace BoundedLogic

/-- Why a check could not be set up. -/
inductive CheckError where
  /-- The range given for a binding is not a set. -/
  | rangeNotASet (binding found : String)
  /-- No obligation has the number asked for. -/
  | unknownObligation (number total : Nat)
  /-- A type has no default range. -/
  | noDefaultRange (type : String)
  /-- The subsets of a range were not enumerated. -/
  | enumeration (e : EnumerationError)
  deriving DecidableEq, Repr

namespace CheckError

/-- The message of an error. -/
def message : CheckError → String
  | .rangeNotASet binding found =>
    "range for `" ++ binding ++ "` did not evaluate to a set (found " ++ found ++ ")"
  | .unknownObligation number total =>
    "PO# " ++ Nat.repr number ++ " unknown. Must be between 1 and " ++ Nat.repr total
  | .noDefaultRange type => "no default range for type `" ++ type ++ "`"
  | .enumeration e => e.message

/-- The diagnostic code of an error. -/
def code : CheckError → String
  | .rangeNotASet _ _ => "quantor::check::range_not_a_set"
  | .unknownObligation _ _ => "quantor::check::unknown_obligation"
  | .noDefaultRange _ => "quantor::check::no_default_range"
  | .enumeration e => e.code

/-- What can be done about an error. -/
def help : CheckError → Option String
  | .noDefaultRange _ => some "add an explicit range for this binding"
  | .enumeration e => e.help
  | _ => none

end CheckError

end BoundedLogic
