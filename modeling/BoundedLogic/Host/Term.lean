import BoundedLogic.Evaluation.Predicate
import BoundedLogic.Numeric.Bounds

set_option relaxedAutoImplicit false
set_option autoImplicit false

/-!
# Terms

A small language in which a host states predicates and computed domains. A term is a predicate: it
looks up names, compares and calculates, builds values, and can contain quantifications. Operands
are evaluated from left to right before an operator looks at them, except that a conjunction and a
disjunction stop as soon as their answer is known.

Some terms also observe the evaluation. What they see is put down in the log that is the state of
the host, under the number of the log's reader.

## Main definitions

* `BoundedLogic.Observation`, `BoundedLogic.Log` — what is seen, and the log.
* `BoundedLogic.Term` — a predicate over a log; the operators are in its namespace.
-/

namespace BoundedLogic

/-- What a term saw. -/
inductive Observation where
  /-- A value. -/
  | value (v : Value)
  /-- The innermost scope and its depth. -/
  | scope (title : String) (depth : Nat) (frame : Frame)
  /-- The recorded counterexample, if one is recorded. -/
  | counterexample (c : Option Counterexample)

/-- Observations, the latest one first, each with the number of its reader. -/
abbrev Log : Type :=
  List (Nat × Observation)

/-- The observations of a log in the order in which they were made. -/
def Log.observations (l : Log) : List Observation :=
  (l.map Prod.snd).reverse

/-- The part of a log that was put down for one reader. -/
def Log.ofReader (reader : Nat) (l : Log) : Log :=
  l.filter fun e => e.1 == reader

/-- A term. -/
abbrev Term : Type :=
  Predicate Log

namespace Term

/-! ### Operands -/

/-- The failure of an operator on an operand of the wrong kind. -/
def wrongKind (expected : String) (v : Value) : EvalError :=
  .predicate ("expected " ++ expected ++ ", found " ++ v.kind.name)

/-- The Boolean an operator needs. -/
def needBool (v : Value) : Except EvalError Bool :=
  match v with
  | .bool b => .ok b
  | v => .error (wrongKind "bool" v)

/-- The integer an operator needs. -/
def needInt (v : Value) : Except EvalError Int64 :=
  match v with
  | .int i => .ok i
  | v => .error (wrongKind "int" v)

/-- The set an operator needs. -/
def needSet (v : Value) : Except EvalError ValueSet :=
  match v with
  | .set vs => .ok (.ofDistinct vs)
  | v => .error (wrongKind "set" v)

/-- The values of operands, from left to right. -/
def evaluateAll : List (Context → Eval Log Value) → Context → Eval Log (List Value)
  | [], _ => pure []
  | run :: runs, env => do
    let v ← run env
    let vs ← evaluateAll runs env
    pure (v :: vs)

/-- The term that evaluates its operands and applies an operation to their values. -/
def operator (operation : List Value → Except EvalError Value) (operands : List Term) : Term :=
  .compound operands fun runs env => do
    let vs ← evaluateAll runs env
    Eval.ofExcept (operation vs)

/-- The failure of an operator on the wrong number of operands. -/
def wrongCount : EvalError :=
  .predicate "wrong number of operands"

/-- The term of an operation on one operand. -/
def unary (operation : Value → Except EvalError Value) (a : Term) : Term :=
  operator (fun
    | [v] => operation v
    | _ => .error wrongCount) [a]

/-- The term of an operation on two operands. -/
def binary (operation : Value → Value → Except EvalError Value) (a b : Term) : Term :=
  operator (fun
    | [v, w] => operation v w
    | _ => .error wrongCount) [a, b]

/-! ### Names and comparisons -/

/-- A constant. -/
def const (v : Value) : Term :=
  .host fun _ => pure v

/-- The value of a name. -/
def var (name : String) : Term :=
  .host fun env =>
    match env.lookup? name with
    | some v => pure v
    | none => throw (.unresolvedName name)

/-- The comparisons. -/
inductive Comparison where
  | eq
  | ne
  | lt
  | le
  | gt
  | ge
  deriving DecidableEq, Repr

/-- Does a comparison hold of two values that are ordered as given? -/
def Comparison.holds : Comparison → Ordering → Bool
  | .eq, o => o == .eq
  | .ne, o => o != .eq
  | .lt, o => o == .lt
  | .le, o => o != .gt
  | .gt, o => o == .gt
  | .ge, o => o != .lt

/-- A comparison of two values. -/
def comparison (c : Comparison) (a b : Term) : Term :=
  binary (fun v w => .ok (.bool (c.holds (v.cmp w)))) a b

/-! ### Calculation -/

/-- The operations on integers. -/
inductive Arithmetic where
  | add
  | sub
  | mul
  deriving DecidableEq, Repr

/-- The result of an operation on integers, without bounds. -/
def Arithmetic.apply : Arithmetic → Int → Int → Int
  | .add, i, j => i + j
  | .sub, i, j => i - j
  | .mul, i, j => i * j

/-- The integer of 64 bits, if it is one. -/
def checkedInt (i : Int) : Except EvalError Value :=
  if fitsInt64 i then .ok (.int (Int64.ofInt i))
  else .error (.predicate "integer overflow")

/-- An operation on two integers, which fails when the result does not fit. -/
def arithmetic (op : Arithmetic) (a b : Term) : Term :=
  binary (fun v w => do
    let i ← needInt v
    let j ← needInt w
    checkedInt (op.apply i.toInt j.toInt)) a b

/-! ### Connectives -/

/-- Negation. -/
def not (a : Term) : Term :=
  unary (fun v => do
    let b ← needBool v
    pure (.bool (!b))) a

/-- Evaluate operands until one is the Boolean `stop`; the opposite if none is. -/
def evaluateUntil (stop : Bool) : List (Context → Eval Log Value) → Context → Eval Log Value
  | [], _ => pure (.bool (!stop))
  | run :: runs, env => do
    let v ← run env
    let b ← Eval.ofExcept (needBool v)
    if b = stop then pure (.bool stop) else evaluateUntil stop runs env

/-- Conjunction. -/
def all (operands : List Term) : Term :=
  .compound operands (evaluateUntil false)

/-- Disjunction. -/
def any (operands : List Term) : Term :=
  .compound operands (evaluateUntil true)

/-! ### Collections -/

/-- The number of elements of a collection. -/
def sizeOf (v : Value) : Except EvalError Value :=
  match v with
  | .set vs => .ok (.int (Int64.ofNat vs.length))
  | .seq vs => .ok (.int (Int64.ofNat vs.length))
  | .map es => .ok (.int (Int64.ofNat es.length))
  | v => .error (.predicate ("no size for " ++ v.kind.name))

/-- The size of a set, a sequence or a map. -/
def size (a : Term) : Term :=
  unary sizeOf a

/-- Is a value an element of a set? -/
def member (a s : Term) : Term :=
  binary (fun v w => do
    let s ← needSet w
    pure (.bool (s.contains v))) a s

/-- Is a set a subset of a set? -/
def subset (s t : Term) : Term :=
  binary (fun v w => do
    let s ← needSet v
    let t ← needSet w
    pure (.bool (s.isSubset t))) s t

/-- The set of some values. -/
def setOf (operands : List Term) : Term :=
  operator (fun vs => .ok (ValueSet.ofList vs).toValue) operands

/-- The sequence of some values. -/
def seqOf (operands : List Term) : Term :=
  operator (fun vs => .ok (.seq vs)) operands

/-- The tuple of some values. -/
def tupleOf (operands : List Term) : Term :=
  operator (fun vs => .ok (.tuple vs)) operands

/-! ### Observation and control -/

/-- Put an observation down for a reader. -/
def observe (reader : Nat) (o : Observation) : Eval Log Unit :=
  modify fun s => { s with host := (reader, o) :: s.host }

/-- The term that evaluates another one around its evaluation. -/
def around (run : (Context → Eval Log Value) → Context → Eval Log Value) (a : Term) : Term :=
  .compound [a] fun
    | [inner] => run inner
    | _ => fun _ => throw wrongCount

/-- The value of a term, which is put down. -/
def traceValue (reader : Nat) (a : Term) : Term :=
  around (fun run env => do
    let v ← run env
    observe reader (.value v)
    pure v) a

/-- The value of a term; the innermost scope is put down first. -/
def traceScope (reader : Nat) (a : Term) : Term :=
  around (fun run env => do
    observe reader (.scope env.title env.depth env.frame)
    run env) a

/-- The value of a term; the recorded counterexample is put down first. -/
def traceCounterexample (reader : Nat) (a : Term) : Term :=
  around (fun run env => do
    observe reader (.counterexample (← get).counterexample)
    run env) a

/-- The value of a term; a command is sent to the interrupter first. -/
def sending (c : Command) (a : Term) : Term :=
  around (fun run env => do
    Eval.send c
    run env) a

/-- A failure. -/
def raise (e : EvalError) : Term :=
  .host fun _ => throw e

/-- The value of a term whose bindings are not shown. -/
def hidden (a : Term) : Term :=
  .host a.evaluate

end Term

end BoundedLogic
