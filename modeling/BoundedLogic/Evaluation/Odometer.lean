import BoundedLogic.Evaluation.Cursor

set_option relaxedAutoImplicit false
set_option autoImplicit false

/-!
# Odometers

The combinations of a list of bindings are enumerated like the readings of an odometer: each
pattern is a wheel that turns through its matches, and the last wheel turns fastest. The odometer
holds the reading that comes next. A wheel at its end starts again and carries over to the wheel
before it; when the first wheel carries over, the enumeration is over.

Whether a name that is bound on several wheels has equal values there is not looked at here.

## Main definitions

* `BoundedLogic.Wheel` — a cursor over one pattern, with the binding it belongs to.
* `BoundedLogic.Odometer` — the wheels and the reading that comes next.
* `BoundedLogic.Odometer.start` — every domain worked out, every wheel at its first match.
* `BoundedLogic.Odometer.next` — the reading that comes next, and the odometer after it.
-/

namespace BoundedLogic

/-- One pattern of a binding. -/
structure Wheel (σ : Type) where
  /-- The position of the binding. All patterns of one binding have the same. -/
  slot : Nat
  /-- The binding. -/
  binding : Binding σ
  /-- The matches of the pattern. -/
  cursor : Cursor

/-- An enumeration of the combinations of a list of bindings. -/
structure Odometer (σ : Type) where
  /-- One wheel per pattern, in declaration order. -/
  wheels : List (Wheel σ)
  /-- The match each wheel shows, in the combination that comes next. -/
  reading : List Match
  /-- Is the enumeration over? -/
  isOver : Bool

namespace Odometer

variable {σ : Type}

/-- The odometer of a list of bindings, before anything is worked out. It is over at first. -/
def ofBindings (bs : List (Binding σ)) : Odometer σ where
  wheels := bs.zipIdx.flatMap fun b => b.1.patterns.map fun p => ⟨b.2, b.1, { pattern := p }⟩
  reading := []
  isOver := true

/-- The number of wheels. -/
def size (o : Odometer σ) : Nat :=
  o.wheels.length

/-- Are there no wheels? -/
def isEmpty (o : Odometer σ) : Bool :=
  o.wheels.isEmpty

/-- The names that occur on more than one wheel, in alphabetical order. -/
def sharedNames (o : Odometer σ) : List String :=
  let names := o.wheels.flatMap fun w => w.cursor.pattern.names
  let shared := names.filter fun n => decide (1 < names.count n)
  shared.eraseDups.mergeSort fun m n => decide (m ≤ n)

/-- The number of readings from the first to the last. -/
def combinations (o : Odometer σ) : Nat :=
  o.wheels.foldr (fun w n => w.cursor.size * n) 1

/-! ### Starting -/

/-- The wheels with the matches of their domains. Each domain is worked out when the first wheel of
its binding is met, and the values are passed on to the other wheels of the binding. At the first
failure the wheels that follow stay as they are. -/
def loadWheels (lenient : Bool) (env : Context) :
    Option (Nat × List Value) → List (Wheel σ) → Eval σ (List (Wheel σ) × Option EvalError)
  | _, [] => pure ([], none)
  | known, w :: ws => do
    let values ← match known with
      | some (slot, values) =>
        if slot = w.slot then pure (.ok values)
        else (w.binding.resolveValues lenient env).attempt
      | none => (w.binding.resolveValues lenient env).attempt
    match values with
    | .error e => pure (w :: ws, some (e.inBinding w.binding.text))
    | .ok values => do
      let cursor := w.cursor.load (← read).allPossibilities values
      let (ws, failure) ← loadWheels lenient env (some (w.slot, values)) ws
      pure ({ w with cursor } :: ws, failure)

/-- The wheels at their first matches, these matches, and whether some wheel has none. -/
def firstReading : List (Wheel σ) → List (Wheel σ) × List Match × Bool
  | [] => ([], [], false)
  | w :: ws =>
    match w.cursor.next with
    | (.ok m, cursor) =>
      let (ws, ms, isOver) := firstReading ws
      ({ w with cursor } :: ws, m :: ms, isOver)
    | (.error _, _) => (w :: ws, [], true)

/-- Work out every domain, in declaration order, and go to the first combination. The first failure
is returned with the odometer as it is then, for the binding that raised it. -/
def start (o : Odometer σ) (lenient : Bool) (env : Context) :
    Eval σ (Odometer σ × Option EvalError) := do
  let (wheels, failure) ← loadWheels lenient env none o.wheels
  match failure with
  | some e => pure ({ o with wheels }, some e)
  | none =>
    let (wheels, reading, isOver) := firstReading wheels
    pure (⟨wheels, reading, isOver⟩, none)

/-! ### Turning -/

/-- Is a combination still to come? -/
def hasNext (o : Odometer σ) : Bool :=
  !o.isOver

/-- Turn the last wheel on, and for each wheel at its end the one before it. The result is whether
the first wheel was at its end, with the wheels and what they show. -/
def turn : List (Wheel σ) → List Match → Except EvalError Bool × List (Wheel σ) × List Match
  | w :: ws, m :: ms =>
    match turn ws ms with
    | (.ok true, ws, ms) =>
      if w.cursor.hasNext then
        match w.cursor.next with
        | (.ok m, cursor) => (.ok false, { w with cursor } :: ws, m :: ms)
        | (.error e, cursor) => (.error e, { w with cursor } :: ws, m :: ms)
      else
        match w.cursor.reset.next with
        | (.ok m, cursor) => (.ok true, { w with cursor } :: ws, m :: ms)
        | (.error e, cursor) => (.error e, { w with cursor } :: ws, m :: ms)
    | (result, ws, ms) => (result, w :: ws, m :: ms)
  | ws, ms => (.ok true, ws, ms)

/-- The combination that comes next, the bindings of all wheels from left to right, and the odometer
turned on. Once the enumeration is over this is an error. -/
def next (o : Odometer σ) : Except EvalError Match × Odometer σ :=
  if o.isOver then
    (.error .exhausted, o)
  else
    match turn o.wheels o.reading with
    | (.ok isOver, wheels, reading) => (.ok (Match.concat o.reading), ⟨wheels, reading, isOver⟩)
    | (.error e, wheels, reading) => (.error e, ⟨wheels, reading, o.isOver⟩)

end Odometer

end BoundedLogic
