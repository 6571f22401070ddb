import BoundedLogic.Evaluation.Domain
import BoundedLogic.Pattern.Basic

set_option relaxedAutoImplicit false
set_option autoImplicit false

/-!
# Bindings

A binding such as `a, b in set S` has one or more patterns that draw their values from one domain.
The domain can be overridden with a set of values until that is taken back.

## Main definitions

* `BoundedLogic.Binding` — a binding.
* `BoundedLogic.Binding.resolveValues` — the values a binding ranges over.
* `BoundedLogic.Binding.override`, `BoundedLogic.Binding.clearOverride` — overriding the domain.
-/

namespace BoundedLogic

/-- The three forms of a binding. -/
inductive BindingKind where
  /-- `p in set S`. -/
  | inSet
  /-- `p in seq S`. -/
  | inSeq
  /-- `p : T`. -/
  | ofType
  deriving DecidableEq, Repr

/-- One or more patterns over a shared domain. -/
structure Binding (σ : Type) where
  /-- The patterns, from left to right. -/
  patterns : List Pattern
  /-- The form of the binding. -/
  kind : BindingKind
  /-- Where the values come from. -/
  domain : Domain σ
  /-- The values that stand in for the domain, if it is overridden. -/
  overridden : Option ValueSet := none

namespace Binding

variable {σ : Type}

/-- What stands between the patterns and the domain in the text of a binding. -/
def separator : BindingKind → String
  | .inSet => " in set "
  | .inSeq => " in seq "
  | .ofType => " : "

/-- The text of a binding, whether its domain is overridden or not. -/
def text (b : Binding σ) : String :=
  commaSeparated (b.patterns.map Pattern.text) ++ separator b.kind ++ b.domain.text

/-- The binding with its domain overridden. -/
def override (b : Binding σ) (values : ValueSet) : Binding σ :=
  { b with overridden := some values }

/-- The binding with its domain as it was declared. -/
def clearOverride (b : Binding σ) : Binding σ :=
  { b with overridden := none }

/-- The values of a domain that fits the form of the binding: the elements of a set for `in set`,
the items of a sequence for `in seq`. -/
def enumerate? : BindingKind → Value → Option (List Value)
  | .inSet, .set vs => some vs
  | .inSeq, .seq vs => some vs
  | _, _ => none

/-- The values a binding ranges over, in the order in which they are enumerated. Overriding values
come before the domain; a domain without a value has no values. -/
def resolveValues (lenient : Bool) (env : Context) (b : Binding σ) : Eval σ (List Value) :=
  match b.overridden with
  | some values => pure values.elements
  | none => do
    match ← b.domain.resolve lenient env with
    | none => pure []
    | some v =>
      match enumerate? b.kind v with
      | some vs => pure vs
      | none => throw (b.domain.complaint v)

end Binding

end BoundedLogic
