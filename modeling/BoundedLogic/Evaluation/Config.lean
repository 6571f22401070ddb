set_option relaxedAutoImplicit false
set_option autoImplicit false

/-!
# Configuration of the evaluation

## Main definitions

* `BoundedLogic.EngineConfig` — the settings that evaluation depends on.
-/

namespace BoundedLogic

/-- The settings that evaluation depends on. -/
structure EngineConfig where
  /-- The largest set whose subsets are enumerated. -/
  powersetLimit : Nat := 30
  /-- Is a domain that names an unbound variable taken as empty? It is an error otherwise. -/
  allowUnresolved : Bool := false
  /-- Does a set pattern try every ordering of a set? It tries the current one only otherwise. -/
  allPossibilities : Bool := false
  deriving DecidableEq, Repr, Inhabited

end BoundedLogic
