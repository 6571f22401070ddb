import BoundedLogic.Checking.Config
import BoundedLogic.Checking.Obligation
import BoundedLogic.Checking.RangeTable
import BoundedLogic.Enumeration.Permutation

set_option relaxedAutoImplicit false
set_option autoImplicit false

/-!
# Default ranges

A type has too many values to be enumerated, so a binding over a type needs a finite range. For
types of a known shape a small one is proposed, whose size the configuration bounds.

## Main definitions

* `BoundedLogic.TypeShape` — the shape of a type.
* `BoundedLogic.CheckerConfig.defaultRange` — the range proposed for a shape.
* `BoundedLogic.CheckerConfig.defaultRanges` — the ranges of all type bindings of a list of
  obligations.
-/

namespace BoundedLogic

/-- The shape of a type. -/
inductive TypeShape where
  /-- The truth values. -/
  | bool
  /-- The naturals. -/
  | nat
  /-- The naturals from one. -/
  | nat1
  /-- The integers. -/
  | int
  /-- The characters. -/
  | char
  /-- The listed quotes. -/
  | quotes (names : List String)
  /-- `nil` and the values of a type. -/
  | optional (t : TypeShape)
  /-- The tuples of values of the listed types. -/
  | product (ts : List TypeShape)
  /-- The finite sets of values of a type. -/
  | setOf (t : TypeShape)
  /-- The finite sequences of values of a type. -/
  | seqOf (t : TypeShape)
  /-- A type known by its name only. -/
  | named (name : String)
  deriving Inhabited

namespace TypeShape

mutual

/-- The text of a type. -/
def text : TypeShape → String
  | .bool => "bool"
  | .nat => "nat"
  | .nat1 => "nat1"
  | .int => "int"
  | .char => "char"
  | .quotes names => " | ".intercalate (names.map fun n => "<" ++ n ++ ">")
  | .optional t => "[" ++ t.text ++ "]"
  | .product ts => " * ".intercalate (texts ts)
  | .setOf t => "set of " ++ t.text
  | .seqOf t => "seq of " ++ t.text
  | .named name => name

/-- The texts of a list of types. -/
def texts : List TypeShape → List String
  | [] => []
  | t :: ts => t.text :: texts ts

end

end TypeShape

namespace CheckerConfig

/-! ### The range of one type -/

/-- All subsets of a range, within the limit for collections. -/
def rangeSubsets (c : CheckerConfig) (range : ValueSet) : Except CheckError (List (List Value)) :=
  match (subsets (pure false : Id Bool) range.elements c.collectionLimit).run with
  | .ok parts => .ok parts
  | .error e => .error (.enumeration e)

/-- Each tuple continued by each value of a range. -/
def extendTuples (tuples : List (List Value)) (range : ValueSet) : List (List Value) :=
  tuples.flatMap fun items => range.elements.map fun v => items ++ [v]

mutual

/-- The range proposed for a type of the given shape. -/
def defaultRange (c : CheckerConfig) : TypeShape → Except CheckError ValueSet
  | .bool => .ok (.ofDistinct [.bool false, .bool true])
  | .nat => .ok (.ofDistinct (Domain.integersBetween 0 c.natLimit.toNat))
  | .nat1 => .ok (.ofDistinct (Domain.integersBetween 1 (max c.natLimit.toNat 1 : Nat)))
  | .int => .ok (.ofDistinct (Domain.integersBetween (-c.intLimit.toNat) c.intLimit.toNat))
  | .char => .ok (.ofList (c.charSample.toList.map .char))
  | .quotes names => .ok (.ofList (names.map .quote))
  | .optional t => do
    let range ← defaultRange c t
    pure (range.insert .nil)
  | .product ts => do
    let tuples ← productTuples c [[]] ts
    pure (.ofDistinct (tuples.map .tuple))
  | .setOf t => do
    let range ← defaultRange c t
    let parts ← c.rangeSubsets range
    pure (.ofDistinct (parts.map .set))
  | .seqOf t => do
    let range ← defaultRange c t
    let parts ← c.rangeSubsets range
    pure (.ofDistinct ((parts.flatMap orderings).map .seq))
  | .named name => .error (.noDefaultRange name)

/-- The tuples begun so far, continued by the values of the ranges proposed for the listed types. -/
def productTuples (c : CheckerConfig) (tuples : List (List Value)) :
    List TypeShape → Except CheckError (List (List Value))
  | [] => .ok tuples
  | t :: ts => do
    let range ← defaultRange c t
    productTuples c (extendTuples tuples range) ts

end

/-! ### The ranges of obligations -/

/-- The range proposed for the type of the given name, if its shape is known. -/
def rangeOfType (c : CheckerConfig) (shapeOf : String → Option TypeShape) (name : String) :
    Except CheckError ValueSet :=
  match shapeOf name with
  | some shape => c.defaultRange shape
  | none => .error (.noDefaultRange name)

/-- What has been proposed for the bindings so far. -/
structure Proposal where
  /-- The ranges. -/
  table : RangeTable := .empty
  /-- The texts of the bindings without a default range. -/
  skipped : List String := []
  /-- The texts of the type bindings already seen. -/
  seen : List String := []
  deriving Inhabited

/-- The proposal after one more binding. Bindings that do not range over a type need no range, and
of bindings with one text only the first is looked at. -/
def propose {σ : Type} (c : CheckerConfig) (shapeOf : String → Option TypeShape) (p : Proposal)
    (b : Binding σ) : Proposal :=
  if b.kind ≠ .ofType ∨ p.seen.contains b.text then p
  else
    let p := { p with seen := p.seen ++ [b.text] }
    match b.domain with
    | .type name =>
      match c.rangeOfType shapeOf name with
      | .ok range => { p with table := p.table.insertSet b.text range }
      | .error _ => { p with skipped := p.skipped ++ [b.text] }
    | _ => p

/-- The default ranges of all type bindings of a list of obligations, and the texts of those that
have none. -/
def defaultRanges {σ : Type} (c : CheckerConfig) (obligations : List (Obligation σ))
    (shapeOf : String → Option TypeShape) : RangeTable × List String :=
  let p := (obligations.flatMap Obligation.bindings).foldl (c.propose shapeOf) {}
  (p.table, p.skipped)

end CheckerConfig

end BoundedLogic
