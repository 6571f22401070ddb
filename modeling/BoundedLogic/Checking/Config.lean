import BoundedLogic.Evaluation.Config

set_option relaxedAutoImplicit false
set_option autoImplicit false

/-!
# Configuration of the checker

## Main definitions

* `BoundedLogic.CheckerConfig` — the settings of the checker, those of the evaluation included.
-/

namespace BoundedLogic

/-- The settings of the checker. -/
structure CheckerConfig where
  /-- The settings of the evaluation. -/
  engine : EngineConfig := {}
  /-- Are obligations checked side by side? -/
  parallel : Bool := false
  /-- The largest natural in the default range of `nat`. -/
  natLimit : UInt32 := 3
  /-- The largest absolute value in the default range of `int`. -/
  intLimit : UInt32 := 2
  /-- The characters in the default range of `char`. -/
  charSample : String := "abc"
  /-- The largest range of elements for which default ranges of collections are made. -/
  collectionLimit : Nat := 4
  deriving DecidableEq, Repr, Inhabited

end BoundedLogic
