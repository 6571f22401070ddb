import BoundedLogic.Evaluation.Predicate

set_option relaxedAutoImplicit false
set_option autoImplicit false

/-!
# Proof obligations

## Main definitions

* `BoundedLogic.Obligation` — a numbered quantification that is claimed to be true.
-/

namespace BoundedLogic

/-- A quantification that is claimed to be true. -/
structure Obligation (σ : Type) where
  /-- The number the obligation is known by. -/
  number : Nat
  /-- What the obligation is for, such as `subtype`. -/
  kind : String
  /-- Is the obligation evaluated? It is only reported otherwise. -/
  isCheckable : Bool := true
  /-- The quantification. -/
  claim : Quantification σ

namespace Obligation

variable {σ : Type}

/-- The bindings of the obligation, those of nested quantifications included. -/
def bindings (o : Obligation σ) : List (Binding σ) :=
  o.claim.allBindings

/-- The bindings that can be overridden. -/
def reachableBindings (o : Obligation σ) : List (Binding σ) :=
  o.claim.reachableBindings

/-- The obligation with every binding that can be overridden replaced by what `f` makes of it. -/
def mapBindings (f : Binding σ → Binding σ) (o : Obligation σ) : Obligation σ :=
  { o with claim := o.claim.mapBindings f }

/-- The obligation with one of the bindings that can be overridden replaced by what `f` makes of
it. -/
def modifyBinding (f : Binding σ → Binding σ) (o : Obligation σ) (i : Nat) : Obligation σ :=
  { o with claim := o.claim.modifyBinding f i }

/-- The text of an obligation. -/
def text (o : Obligation σ) : String :=
  "Proof Obligation " ++ Nat.repr o.number ++ ": (" ++ o.kind ++ ")\n" ++ o.claim.text

end Obligation

end BoundedLogic
