import BoundedLogic.Interrupt.Basic
import BoundedLogic.Json.Reader

set_option relaxedAutoImplicit false
set_option autoImplicit false

/-!
# Interruption as JSON

A level is written as its name, a command as an object with its name under `cmd`, an event as an
object with its name under `event` and its reason beside it. When they are read, members that are
not needed are passed over, but one that is needed must be there once. A level may also stand as
the only member of an object, with the value `null`, and a command or an event as an array with its
name first.

## Main definitions

* `BoundedLogic.Level.toJson`, `BoundedLogic.Level.ofJson?` — levels.
* `BoundedLogic.Command.toJson`, `BoundedLogic.Command.ofJson?` — commands.
* `BoundedLogic.Event.toJson`, `BoundedLogic.Event.ofJson?` — events.
-/

namespace BoundedLogic

namespace Json

/-- The value of the member of the given name, which must be there once. -/
def onlyMember? (name : String) (members : List (String × Json)) : Option Json :=
  match members.filter fun m => m.1 == name with
  | [m] => some m.2
  | _ => none

end Json

/-! ### Levels -/

namespace Level

/-- The name of a level. -/
def name : Level → String
  | .running => "continue"
  | .paused => "pause"
  | .terminating => "terminate"

/-- The name of a level with a capital letter. -/
def title : Level → String
  | .running => "Continue"
  | .paused => "Pause"
  | .terminating => "Terminate"

/-- The level of the given name. -/
def ofName? (name : String) : Option Level :=
  [running, paused, terminating].find? fun l => l.name == name

/-- A level as JSON. -/
def toJson (l : Level) : Json :=
  .string l.name

/-- The level of a JSON value. -/
def ofJson? : Json → Option Level
  | .string name => ofName? name
  | .object [(name, .null)] => ofName? name
  | _ => none

end Level

/-! ### Commands -/

namespace Command

/-- The name of a command. -/
def name : Command → String
  | .pause => "pause"
  | .resume => "continue"
  | .terminate => "terminate"
  | .reset => "reset"

/-- The command of the given name. -/
def ofName? (name : String) : Option Command :=
  [pause, resume, terminate, reset].find? fun c => c.name == name

/-- A command as JSON. -/
def toJson (c : Command) : Json :=
  .object [("cmd", .string c.name)]

/-- The command of a JSON value. -/
def ofJson? : Json → Option Command
  | .object members => do
    match ← Json.onlyMember? "cmd" members with
    | .string name => ofName? name
    | _ => none
  | .array [.string name] => ofName? name
  | _ => none

end Command

/-! ### Events -/

namespace Event

/-- An event as JSON. -/
def toJson : Event → Json
  | .paused reason => .object [("event", .string "paused"), ("reason", .string reason)]
  | .resumed => .object [("event", .string "resumed")]
  | .terminated reason => .object [("event", .string "terminated"), ("reason", .string reason)]

/-- The event of the given name, with a reason if it has one. -/
def ofName? (name : String) (reason : Option String) : Option Event :=
  if name = "paused" then reason.map .paused
  else if name = "resumed" then some .resumed
  else if name = "terminated" then reason.map .terminated
  else none

/-- The reason among the members of an object. -/
def reason? (members : List (String × Json)) : Option String :=
  match Json.onlyMember? "reason" members with
  | some (.string reason) => some reason
  | _ => none

/-- The event of a JSON value. -/
def ofJson? : Json → Option Event
  | .object members => do
    match ← Json.onlyMember? "event" members with
    | .string name => ofName? name (reason? members)
    | _ => none
  | .array [.string "resumed"] => some .resumed
  | .array [.string name, .string reason] =>
    if name = "resumed" then none else ofName? name (some reason)
  | _ => none

end Event

/-! ### The state -/

namespace Interrupter

/-- The interrupter as it is shown. -/
def inspect (i : Interrupter) : String :=
  "Interrupter(" ++ i.level.title ++ ")"

/-- The handle of the controller as it is shown. -/
def inspectHandle : String :=
  "InterruptHandle(..)"

end Interrupter

end BoundedLogic
