set_option relaxedAutoImplicit false
set_option autoImplicit false

/-!
# Interruption

A long enumeration can be paused, resumed and terminated by whoever controls it. The controller
sends commands, which set a level; the enumeration reads the level where it can stop. Under a pause
it waits until the level changes. Each pause, and each way out of one, is recorded in a log of
events.

The controller is given by its replies: each time a wait blocks it sends commands until the wait is
over, and when it has none left it terminates.

## Main definitions

* `BoundedLogic.Interrupter` — the level, the replies to come and the log.
* `BoundedLogic.Interrupter.send` — what a command does.
* `BoundedLogic.Interrupter.wait` — waiting out a pause.
* `BoundedLogic.Interrupter.shouldTerminate` — the question an enumeration asks.
-/

namespace BoundedLogic

/-- What the controller wants of the enumeration. -/
inductive Level where
  /-- Go on. -/
  | running
  /-- Wait where you are. -/
  | paused
  /-- Give up. -/
  | terminating
  deriving DecidableEq, Repr, Inhabited

/-- What the controller sends. -/
inductive Command where
  /-- Ask for a pause. -/
  | pause
  /-- End a pause. -/
  | resume
  /-- Abort the running enumeration. -/
  | terminate
  /-- Take back a terminate, so that the next enumeration runs. -/
  | reset
  deriving DecidableEq, Repr, Inhabited

/-- What is recorded. -/
inductive Event where
  /-- An enumeration waits, for the given reason. -/
  | paused (reason : String)
  /-- A pause was ended. -/
  | resumed
  /-- A terminate was sent, for the given reason. -/
  | terminated (reason : String)
  deriving DecidableEq, Repr

/-- The state shared by an enumeration and its controller. -/
structure Interrupter where
  /-- The level set last. -/
  level : Level := .running
  /-- The commands the controller still has for waits that block. -/
  replies : List Command := []
  /-- The events so far, the first one first. -/
  events : List Event := []
  deriving Repr, Inhabited

namespace Interrupter

/-- The interrupter with one more event. -/
def emit (i : Interrupter) (e : Event) : Interrupter :=
  { i with events := i.events ++ [e] }

/-- The interrupter after a command. Resuming has an effect under a pause only; the other commands
set the level whatever it was. -/
def send (i : Interrupter) : Command → Interrupter
  | .pause => { i with level := .paused }
  | .resume => if i.level = .paused then { i with level := .running }.emit .resumed else i
  | .terminate => { i with level := .terminating }.emit (.terminated "terminate requested")
  | .reset => { i with level := .running }

/-- The interrupter after commands sent one after another. -/
def sendAll (i : Interrupter) (cs : List Command) : Interrupter :=
  cs.foldl send i

/-- The controller's replies to a blocked wait, until the pause is over. -/
def unblock : List Command → Interrupter → Interrupter
  | [], i => { i with replies := [] }.send .terminate
  | c :: cs, i =>
    let i := { i with replies := cs }.send c
    if i.level = .paused then unblock cs i else i

/-- Wait while paused. The level afterwards is the one that ended the wait. -/
def wait (i : Interrupter) (reason : String) : Interrupter :=
  if i.level = .paused then unblock i.replies (i.emit (.paused reason)) else i

/-- Has the enumeration been told to terminate? Never waits. -/
def terminateRequested (i : Interrupter) : Bool :=
  i.level == .terminating

/-- Must the enumeration give up? A pause is waited out first. -/
def shouldTerminate (i : Interrupter) (reason : String) : Bool × Interrupter :=
  match i.level with
  | .running => (false, i)
  | .paused =>
    let i := i.wait reason
    (i.terminateRequested, i)
  | .terminating => (true, i)

end Interrupter

end BoundedLogic
