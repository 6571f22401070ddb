import BoundedLogic.Evaluation.Quantification

set_option relaxedAutoImplicit false
set_option autoImplicit false

/-!
# Predicates

What a quantification asks for is a predicate. To the engine it is a black box that evaluates to a
value in a context, except that it can contain quantifications, whose bindings are listed and can
be overridden from outside. A predicate that is shared with others shows its bindings but does not
let them be changed.

## Main definitions

* `BoundedLogic.Predicate` — a predicate and the quantifications in it.
* `BoundedLogic.Predicate.evaluate` — its value in a context.
* `BoundedLogic.Predicate.bindings`, `BoundedLogic.Predicate.reachableBindings` — the bindings it
  shows, and those that can be changed.
* `BoundedLogic.Predicate.mapBindings`, `BoundedLogic.Predicate.modifyBinding` — changing them.
* `BoundedLogic.Quantification` — a quantification over a predicate.
-/

namespace BoundedLogic

/-- What a quantification asks for. -/
inductive Predicate (σ : Type) where
  /-- Evaluated by the host alone. -/
  | host (run : Context → Eval σ Value)
  /-- A quantification over a predicate. -/
  | quantified (quantifier : Quantifier) (bindings : List (Binding σ)) (body : Predicate σ)
  /-- Evaluated by the host from the evaluations of its parts. -/
  | compound (parts : List (Predicate σ))
      (run : List (Context → Eval σ Value) → Context → Eval σ Value)
  /-- A predicate that others use as well. -/
  | shared (p : Predicate σ)

/-- A quantification over a predicate. -/
structure Quantification (σ : Type) where
  /-- The kind of the quantification. -/
  quantifier : Quantifier
  /-- Its bindings, from left to right. -/
  bindings : List (Binding σ)
  /-- What is asked for each combination. -/
  body : Predicate σ

namespace Predicate

variable {σ : Type}

/-! ### Evaluation -/

mutual

/-- The value of a predicate in a context. -/
def evaluate : Predicate σ → Context → Eval σ Value
  | .host run => run
  | .quantified q bs body => fun env => do
    let holds ← q.evaluate bs body.evaluate env
    pure (.bool holds)
  | .compound parts run => run (evaluations parts)
  | .shared p => p.evaluate

/-- The evaluations of a list of predicates. -/
def evaluations : List (Predicate σ) → List (Context → Eval σ Value)
  | [] => []
  | p :: ps => p.evaluate :: evaluations ps

end

/-! ### Bindings -/

mutual

/-- The bindings of the quantifications in a predicate, outermost first, then from left to right. -/
def bindings : Predicate σ → List (Binding σ)
  | .host _ => []
  | .quantified _ bs body => bs ++ body.bindings
  | .compound parts _ => listBindings parts
  | .shared p => p.bindings

/-- The bindings in a list of predicates. -/
def listBindings : List (Predicate σ) → List (Binding σ)
  | [] => []
  | p :: ps => p.bindings ++ listBindings ps

end

mutual

/-- The bindings that can be changed: those that are not in a shared predicate. -/
def reachableBindings : Predicate σ → List (Binding σ)
  | .host _ => []
  | .quantified _ bs body => bs ++ body.reachableBindings
  | .compound parts _ => listReachableBindings parts
  | .shared _ => []

/-- The bindings in a list of predicates that can be changed. -/
def listReachableBindings : List (Predicate σ) → List (Binding σ)
  | [] => []
  | p :: ps => p.reachableBindings ++ listReachableBindings ps

end

mutual

/-- The predicate with every binding that can be changed replaced by what `f` makes of it. -/
def mapBindings (f : Binding σ → Binding σ) : Predicate σ → Predicate σ
  | .host run => .host run
  | .quantified q bs body => .quantified q (bs.map f) (body.mapBindings f)
  | .compound parts run => .compound (mapListBindings f parts) run
  | .shared p => .shared p

/-- The same for a list of predicates. -/
def mapListBindings (f : Binding σ → Binding σ) : List (Predicate σ) → List (Predicate σ)
  | [] => []
  | p :: ps => p.mapBindings f :: mapListBindings f ps

end

mutual

/-- The predicate with one of the bindings that can be changed, counted from `0`, replaced by what
`f` makes of it. -/
def modifyBinding (f : Binding σ → Binding σ) : Predicate σ → Nat → Predicate σ
  | .host run, _ => .host run
  | .quantified q bs body, i =>
    if i < bs.length then .quantified q (bs.modify i f) body
    else .quantified q bs (body.modifyBinding f (i - bs.length))
  | .compound parts run, i => .compound (modifyListBinding f parts i) run
  | .shared p, _ => .shared p

/-- The same for a list of predicates, whose bindings are counted through. -/
def modifyListBinding (f : Binding σ → Binding σ) : List (Predicate σ) → Nat → List (Predicate σ)
  | [], _ => []
  | p :: ps, i =>
    let count := p.reachableBindings.length
    if i < count then p.modifyBinding f i :: ps
    else p :: modifyListBinding f ps (i - count)

end

end Predicate

namespace Quantification

variable {σ : Type}

/-- The answer of a quantification in a context. -/
def evaluate (q : Quantification σ) (env : Context) : Eval σ Bool :=
  q.quantifier.evaluate q.bindings q.body.evaluate env

/-- The quantification as a predicate. -/
def toPredicate (q : Quantification σ) : Predicate σ :=
  .quantified q.quantifier q.bindings q.body

/-- All bindings, those of the quantification itself first. -/
def allBindings (q : Quantification σ) : List (Binding σ) :=
  q.bindings ++ q.body.bindings

/-- The bindings that can be changed, those of the quantification itself first. -/
def reachableBindings (q : Quantification σ) : List (Binding σ) :=
  q.bindings ++ q.body.reachableBindings

/-- The quantification with every binding that can be changed replaced by what `f` makes of it. -/
def mapBindings (f : Binding σ → Binding σ) (q : Quantification σ) : Quantification σ :=
  { q with bindings := q.bindings.map f, body := q.body.mapBindings f }

/-- The quantification with one of the bindings that can be changed replaced by what `f` makes of
it. -/
def modifyBinding (f : Binding σ → Binding σ) (q : Quantification σ) (i : Nat) : Quantification σ :=
  if i < q.bindings.length then { q with bindings := q.bindings.modify i f }
  else { q with body := q.body.modifyBinding f (i - q.bindings.length) }

/-- The text of a quantification. Its predicate is not shown. -/
def text (q : Quantification σ) : String :=
  q.quantifier.keyword ++ " " ++ commaSeparated (q.bindings.map Binding.text) ++ " & ..."

end Quantification

end BoundedLogic
