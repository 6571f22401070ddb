import BoundedLogic.Checking.Config
import BoundedLogic.Toml.Reader

set_option relaxedAutoImplicit false
set_option autoImplicit false

/-!
# Settings from TOML

The settings are read from a TOML document. Every setting may be missing and then has its default;
names that are no settings are passed over; a setting of the wrong kind, or a number that does not
fit, makes the whole document unreadable. The settings of the evaluation stand in a table of the
settings of the checker; they may also stand in an array, in their order, of which the last ones
may be missing.

## Main definitions

* `BoundedLogic.ConfigError` — why there are no settings.
* `BoundedLogic.EngineConfig.read`, `BoundedLogic.CheckerConfig.read` — the settings of a document.
* `BoundedLogic.EngineConfig.toTomlText` — a document of the settings.
-/

namespace BoundedLogic

/-- Why there are no settings. -/
inductive ConfigError where
  /-- The document is not well formed, or a setting is not of its kind. -/
  | malformed
  /-- There is no document. -/
  | unreadable
  deriving DecidableEq, Repr

/-- The message of an error, without its details. -/
def ConfigError.message : ConfigError → String
  | .malformed => "Failed to parse config"
  | .unreadable => "Failed to read config"

/-! ### Single settings -/

namespace Toml

/-- A truth value. -/
def toBool? : Toml → Option Bool
  | .boolean b => some b
  | _ => none

/-- A text. -/
def toText? : Toml → Option String
  | .string s => some s
  | _ => none

/-- A natural. -/
def toNat? : Toml → Option Nat
  | .integer i => if 0 ≤ i then some i.toNat else none
  | _ => none

/-- A natural of 32 bits. -/
def toUInt32? (v : Toml) : Option UInt32 :=
  match v.toNat? with
  | some n => if n < Nat.pow 2 32 then some n.toUInt32 else none
  | none => none

/-- A setting, or its default where it is missing. -/
def setting {α : Type} (read : Toml → Option α) (default : α) : Option Toml → Option α
  | some v => read v
  | none => some default

end Toml

/-! ### Settings of the evaluation -/

namespace EngineConfig

/-- The settings of the evaluation, of which each may be missing. -/
def ofSettings? (powersetLimit allowUnresolved allPossibilities : Option Toml) :
    Option EngineConfig := do
  let base : EngineConfig := {}
  let powersetLimit ← Toml.setting Toml.toNat? base.powersetLimit powersetLimit
  let allowUnresolved ← Toml.setting Toml.toBool? base.allowUnresolved allowUnresolved
  let allPossibilities ← Toml.setting Toml.toBool? base.allPossibilities allPossibilities
  some { powersetLimit, allowUnresolved, allPossibilities }

/-- The settings among the members of a table. -/
def ofMembers? (ms : Toml.Members) : Option EngineConfig :=
  ofSettings? (Toml.find? "powerset_limit" ms) (Toml.find? "allow_unresolved" ms)
    (Toml.find? "all_possibilities" ms)

/-- The settings in a value: a table, or an array of them in order. Tables opened in double brackets
count as the items of an array. A date has no members that are settings. -/
def ofToml? : Toml → Option EngineConfig
  | .table _ ms => ofMembers? ms
  | .array vs => ofSettings? vs[0]? vs[1]? vs[2]?
  | .tables elements =>
    let vs := elements.reverse.map (Toml.table .header)
    ofSettings? vs[0]? vs[1]? vs[2]?
  | .datetime => some {}
  | _ => none

/-- The settings of a document. -/
def read (text : String) : Except ConfigError EngineConfig :=
  match (Toml.read? text).bind ofMembers? with
  | some config => .ok config
  | none => .error .malformed

/-- A document of the settings. -/
def toTomlText (c : EngineConfig) : String :=
  "powerset_limit = " ++ Nat.repr c.powersetLimit ++ "\n" ++
  "allow_unresolved = " ++ (if c.allowUnresolved then "true" else "false") ++ "\n" ++
  "all_possibilities = " ++ (if c.allPossibilities then "true" else "false") ++ "\n"

end EngineConfig

/-! ### Settings of the checker -/

namespace CheckerConfig

/-- The settings among the members of a table. -/
def ofMembers? (ms : Toml.Members) : Option CheckerConfig := do
  let base : CheckerConfig := {}
  let engine ← Toml.setting EngineConfig.ofToml? base.engine (Toml.find? "engine" ms)
  let parallel ← Toml.setting Toml.toBool? base.parallel (Toml.find? "parallel" ms)
  let natLimit ← Toml.setting Toml.toUInt32? base.natLimit (Toml.find? "nat_limit" ms)
  let intLimit ← Toml.setting Toml.toUInt32? base.intLimit (Toml.find? "int_limit" ms)
  let charSample ← Toml.setting Toml.toText? base.charSample (Toml.find? "char_sample" ms)
  let collectionLimit ←
    Toml.setting Toml.toNat? base.collectionLimit (Toml.find? "collection_limit" ms)
  some { engine, parallel, natLimit, intLimit, charSample, collectionLimit }

/-- The settings of a document. -/
def read (text : String) : Except ConfigError CheckerConfig :=
  match (Toml.read? text).bind ofMembers? with
  | some config => .ok config
  | none => .error .malformed

end CheckerConfig

end BoundedLogic
