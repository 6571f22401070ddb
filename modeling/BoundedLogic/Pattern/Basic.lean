import BoundedLogic.Value.Text

set_option relaxedAutoImplicit false
set_option autoImplicit false

/-!
# Patterns

A pattern stands on the left of a binding and takes a value apart: it binds names to the value or
to its parts, and accepts only values of a given shape.

## Main definitions

* `BoundedLogic.Pattern` — a pattern.
* `BoundedLogic.Pattern.names` — the names a pattern binds.
* `BoundedLogic.Pattern.text` — the text of a pattern.
-/

namespace BoundedLogic

/-- A pattern. -/
inductive Pattern where
  /-- Accepts any value and binds a name to it. -/
  | name (n : String)
  /-- Accepts any value and binds nothing. -/
  | ignore
  /-- Accepts the values equal to the given one. -/
  | literal (v : Value)
  /-- Accepts tuples of as many items, each accepted by its pattern. -/
  | tuple (parts : List Pattern)
  /-- Accepts records of the named type with as many fields, each accepted by its pattern. -/
  | record (name : String) (parts : List Pattern)
  /-- Accepts sets of as many elements, each accepted by its pattern in some order. -/
  | set (parts : List Pattern)
  /-- Accepts sequences of as many items, each accepted by its pattern. -/
  | seq (parts : List Pattern)
  deriving Inhabited

namespace Pattern

/-! ### Names -/

mutual

/-- The names in a pattern, from left to right, repeats included. -/
def occurrences : Pattern → List String
  | .name n => [n]
  | .ignore => []
  | .literal _ => []
  | .tuple ps => listOccurrences ps
  | .record _ ps => listOccurrences ps
  | .set ps => listOccurrences ps
  | .seq ps => listOccurrences ps

/-- The names in a list of patterns, from left to right, repeats included. -/
def listOccurrences : List Pattern → List String
  | [] => []
  | p :: ps => p.occurrences ++ listOccurrences ps

end

/-- The names a pattern binds, each once, in the order of their first occurrences. -/
def names (p : Pattern) : List String :=
  p.occurrences.eraseDups

/-! ### Text -/

mutual

/-- The text of a pattern. -/
def text : Pattern → String
  | .name n => n
  | .ignore => "-"
  | .literal v => v.text
  | .tuple ps => "mk_(" ++ commaSeparated (texts ps) ++ ")"
  | .record n ps => "mk_" ++ n ++ "(" ++ commaSeparated (texts ps) ++ ")"
  | .set ps => "\x7b" ++ commaSeparated (texts ps) ++ "\x7d"
  | .seq ps => "[" ++ commaSeparated (texts ps) ++ "]"

/-- The texts of a list of patterns. -/
def texts : List Pattern → List String
  | [] => []
  | p :: ps => p.text :: texts ps

end

end Pattern

end BoundedLogic
