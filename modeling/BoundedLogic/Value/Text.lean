import BoundedLogic.Numeric.Decimal
import BoundedLogic.Value.Basic

set_option relaxedAutoImplicit false
set_option autoImplicit false

/-!
# Texts of values

A value is written in the notation of the specification language: `mk_(1, true)` for a tuple,
`mk_R(1, 2)` for a record, `<RED>` for a quote, `1 |-> 'a'` for an entry of a map between braces.
A nonempty sequence of characters is written as a text between quotation marks.

## Main definitions

* `BoundedLogic.Value.text` — the text of a value.
-/

namespace BoundedLogic

/-- The parts, with a comma and a blank between them. -/
def commaSeparated (parts : List String) : String :=
  ", ".intercalate parts

namespace Value

/-- The characters of a sequence that holds nothing else. -/
def characters? : List Value → Option (List Char)
  | [] => some []
  | .char c :: vs => (characters? vs).map (c :: ·)
  | _ :: _ => none

mutual

/-- The text of a value. -/
def text : Value → String
  | .nil => "nil"
  | .bool b => if b then "true" else "false"
  | .int i => Int.repr i.toInt
  | .real r => r.text
  | .char c => "'" ++ String.singleton c ++ "'"
  | .quote q => "<" ++ q ++ ">"
  | .token v => "mk_token(" ++ v.text ++ ")"
  | .tuple vs => "mk_(" ++ commaSeparated (texts vs) ++ ")"
  | .record n fs => "mk_" ++ n ++ "(" ++ commaSeparated (fieldTexts fs) ++ ")"
  | .set vs => "\x7b" ++ commaSeparated (texts vs) ++ "\x7d"
  | .seq vs =>
    match vs, characters? vs with
    | _ :: _, some cs => "\"" ++ String.ofList cs ++ "\""
    | _, _ => "[" ++ commaSeparated (texts vs) ++ "]"
  | .map [] => "\x7b|->\x7d"
  | .map es => "\x7b" ++ commaSeparated (entryTexts es) ++ "\x7d"
  | .function n _ => n

/-- The texts of a list of values. -/
def texts : List Value → List String
  | [] => []
  | v :: vs => v.text :: texts vs

/-- The texts of the values of a list of fields. -/
def fieldTexts : List (String × Value) → List String
  | [] => []
  | (_, v) :: fs => v.text :: fieldTexts fs

/-- The texts of a list of entries, an arrow between key and value. -/
def entryTexts : List (Value × Value) → List String
  | [] => []
  | (k, v) :: es => (k.text ++ " |-> " ++ v.text) :: entryTexts es

end

end Value

end BoundedLogic
