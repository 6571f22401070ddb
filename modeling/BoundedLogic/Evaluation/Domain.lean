import BoundedLogic.Enumeration.Subset
import BoundedLogic.Evaluation.Session
import BoundedLogic.Scope.Context
import BoundedLogic.Text.Quoted
import BoundedLogic.Value.Map

set_option relaxedAutoImplicit false
set_option autoImplicit false

/-!
# Domains

A binding draws its values from a domain: a literal value, the value of a name, a range of
integers, a set built from another domain by `power`, `dom` or `rng`, or a value the host computes.
A type is a domain that can be written down but not enumerated.

## Main definitions

* `BoundedLogic.Domain` — a domain.
* `BoundedLogic.Domain.resolve` — the value of a domain in a context.
* `BoundedLogic.Domain.text`, `BoundedLogic.Domain.inspect` — a domain as it is shown.
-/

namespace BoundedLogic

/-- Where a binding draws its values from. -/
inductive Domain (σ : Type) where
  /-- A literal value. -/
  | value (v : Value)
  /-- The value of a name. -/
  | name (n : String)
  /-- The integers from `lo` to `hi`, none if `hi` is below `lo`. -/
  | range (lo hi : Int64)
  /-- The subsets of a set. -/
  | power (d : Domain σ)
  /-- The keys of a map. -/
  | dom (d : Domain σ)
  /-- The values of a map. -/
  | rng (d : Domain σ)
  /-- The values of a type. -/
  | type (name : String)
  /-- A value the host computes. -/
  | computed (label : String) (run : Context → Eval σ Value)

namespace Domain

variable {σ : Type}

/-! ### Texts -/

/-- The text of a domain. -/
def text : Domain σ → String
  | .value v => v.text
  | .name n => n
  | .range lo hi => "\x7b" ++ Int.repr lo.toInt ++ ", ..., " ++ Int.repr hi.toInt ++ "\x7d"
  | .power d => "power " ++ d.text
  | .dom d => "dom " ++ d.text
  | .rng d => "rng " ++ d.text
  | .type t => t
  | .computed label _ => label

/-- A domain as it is shown for inspection. -/
def inspect : Domain σ → String
  | .computed label _ => "Computed \x7b label: " ++ quotedText label ++ " \x7d"
  | d => "DomainExpr(" ++ d.text ++ ")"

/-! ### Values -/

/-- The integers from `lo` to `hi`. -/
def integersBetween (lo hi : Int) : List Value :=
  (List.range (hi - lo + 1).toNat).map fun (k : Nat) => .int (Int64.ofInt (lo + k))

/-- The complaint that the value found for a domain is not of the kind needed. -/
def complaint (d : Domain σ) (found : Value) : EvalError :=
  .notEnumerable d.text found.kind.name

/-- The subsets of a set of values, within the configured limit. -/
def evalPowerSet (s : ValueSet) : Eval σ ValueSet := do
  let config ← read
  let outcome ← Eval.onSession
    (powerSet (Eval.shouldTerminate "power set") s config.powersetLimit).run
  match outcome with
  | .ok parts => pure parts
  | .error e => throw (.enumeration e)

/-- The value of a domain in a context. With `lenient` there is none if a name in it is bound in no
scope; otherwise such a name is an error. -/
def resolve (lenient : Bool) (env : Context) : Domain σ → Eval σ (Option Value)
  | .value v => pure (some v)
  | .name n =>
    match env.lookup? n with
    | some v => pure (some v)
    | none => if lenient then pure none else throw (.unresolvedName n)
  | .range lo hi => pure (some (.set (integersBetween lo.toInt hi.toInt)))
  | .power d => do
    match ← d.resolve lenient env with
    | none => pure none
    | some (.set vs) => do
      let parts ← evalPowerSet (.ofDistinct vs)
      pure (some parts.toValue)
    | some v => throw (d.complaint v)
  | .dom d => do
    match ← d.resolve lenient env with
    | none => pure none
    | some (.map es) => pure (some (ValueMap.mk es).dom.toValue)
    | some v => throw (d.complaint v)
  | .rng d => do
    match ← d.resolve lenient env with
    | none => pure none
    | some (.map es) => pure (some (ValueMap.mk es).rng.toValue)
    | some v => throw (d.complaint v)
  | .type t => throw (.notEnumerable t "type")
  | .computed _ run => do
    let v ← run env
    pure (some v)

end Domain

end BoundedLogic
