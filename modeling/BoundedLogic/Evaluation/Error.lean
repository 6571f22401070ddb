import BoundedLogic.Enumeration.Error

set_option relaxedAutoImplicit false
set_option autoImplicit false

/-!
# Why an evaluation failed

An evaluation can fail because a domain cannot be enumerated, because a predicate fails or does not
answer with a Boolean, or because it was told to stop. A failure while the domain of a binding is
worked out is reported with the text of the binding, except for a request to stop, which is passed
on as one.

## Main definitions

* `BoundedLogic.EvalError` — the causes of failure.
* `BoundedLogic.EvalError.isCancelled` — is the cause a request to stop?
* `BoundedLogic.EvalError.inBinding` — a failure, reported for a binding.
* `BoundedLogic.EvalError.message`, `BoundedLogic.EvalError.code`, `BoundedLogic.EvalError.help` —
  what is shown of an error.
-/

namespace BoundedLogic

/-- Why an evaluation failed. -/
inductive EvalError where
  /-- A domain is not of a kind that can be enumerated. -/
  | notEnumerable (domain found : String)
  /-- A name is bound in no scope. -/
  | unresolvedName (name : String)
  /-- The domain of a binding could not be worked out. -/
  | binding (text : String) (source : EvalError)
  /-- The subsets of a set were not enumerated. -/
  | enumeration (e : EnumerationError)
  /-- The evaluation was told to stop. -/
  | cancelled
  /-- A predicate answered with something other than a Boolean. -/
  | notBoolean (found : String)
  /-- A predicate failed, with a message of its own. -/
  | predicate (text : String)
  /-- One more item was asked of an enumeration that was over. -/
  | exhausted
  deriving DecidableEq, Repr, Inhabited

namespace EvalError

/-- Was the evaluation told to stop, be it inside a binding? -/
def isCancelled : EvalError → Bool
  | .cancelled => true
  | .enumeration (.cancelled _) => true
  | .binding _ source => source.isCancelled
  | _ => false

/-- A failure met while a binding was worked out. A request to stop is not a failure of the
binding. -/
def inBinding (text : String) (source : EvalError) : EvalError :=
  if source.isCancelled then .cancelled else .binding text source

/-- The message of an error. -/
def message : EvalError → String
  | .notEnumerable domain found => "`" ++ domain ++ "` is not enumerable (found " ++ found ++ ")"
  | .unresolvedName name => "name `" ++ name ++ "` has no value"
  | .binding text source => "cannot initialize binding `" ++ text ++ "`: " ++ source.message
  | .enumeration e => e.message
  | .cancelled => "evaluation interrupted"
  | .notBoolean found => "predicate returned a " ++ found ++ ", expected a bool"
  | .predicate text => text
  | .exhausted => "quantifier advanced past its last value"

/-- The diagnostic code of an error. -/
def code : EvalError → String
  | .notEnumerable _ _ => "quantor::eval::domain_not_enumerable"
  | .unresolvedName _ => "quantor::eval::unresolved_name"
  | .binding _ _ => "quantor::eval::binding"
  | .enumeration e => e.code
  | .cancelled => "quantor::eval::cancelled"
  | .notBoolean _ => "quantor::eval::predicate_not_boolean"
  | .predicate _ => "quantor::eval::predicate"
  | .exhausted => "quantor::eval::exhausted_iterator"

/-- What can be done about an error. -/
def help : EvalError → Option String
  | .enumeration e => e.help
  | .exhausted => some "this is an internal defect, please report it"
  | _ => none

end EvalError

end BoundedLogic
