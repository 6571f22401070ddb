import BoundedLogic.Json.Basic
import BoundedLogic.Numeric.Binary64
import BoundedLogic.Text.Scan

set_option relaxedAutoImplicit false
set_option autoImplicit false

/-!
# Reading JSON

A JSON text is read strictly: blanks are allowed between tokens and nowhere else, nothing may
follow the value, and control characters have to be escaped. A surrogate counts only as one half of
an escaped pair. A number must not be too large for a real, and arrays and objects must not be
nested too deeply.

## Main definitions

* `BoundedLogic.Json.read?` — the value of a JSON text.
-/

namespace BoundedLogic

namespace Json

/-! ### Texts -/

/-- The characters written by a backslash and a letter. -/
def unescape? (c : Char) : Option Char :=
  match c with
  | '"' => some '"'
  | '\\' => some '\\'
  | '/' => some '/'
  | 'b' => some (Char.ofNat 8)
  | 'f' => some (Char.ofNat 12)
  | 'n' => some '\n'
  | 'r' => some '\r'
  | 't' => some '\t'
  | _ => none

/-- The character of an escape by number, after its `u`: four hexadecimal digits, or twice four for
the two halves of a pair. -/
def scanEscapedNumber : Scan Char := fun cs => do
  let (high, cs) ← Scan.hexadecimal 4 0 cs
  if 0xD800 ≤ high ∧ high < 0xDC00 then
    let cs ← Scan.exact ['\\', 'u'] cs
    let (low, cs) ← Scan.hexadecimal 4 0 cs
    if 0xDC00 ≤ low ∧ low < 0xE000 then
      let c ← Scan.codePoint? (0x10000 + (high - 0xD800) * 0x400 + (low - 0xDC00))
      some (c, cs)
    else none
  else
    let c ← Scan.codePoint? high
    some (c, cs)

/-- The characters of a text after its opening quotation mark, up to the closing one. There are at
most `fuel` of them. -/
def scanCharacters : Nat → Scan (List Char)
  | 0, _ => none
  | _ + 1, [] => none
  | _ + 1, '"' :: cs => some ([], cs)
  | fuel + 1, '\\' :: 'u' :: cs => do
    let (c, cs) ← scanEscapedNumber cs
    let (text, cs) ← scanCharacters fuel cs
    some (c :: text, cs)
  | _ + 1, ['\\'] => none
  | fuel + 1, '\\' :: e :: cs => do
    let c ← unescape? e
    let (text, cs) ← scanCharacters fuel cs
    some (c :: text, cs)
  | fuel + 1, c :: cs =>
    if c.toNat < 32 then none
    else do
      let (text, cs) ← scanCharacters fuel cs
      some (c :: text, cs)

/-- A text, after its opening quotation mark. -/
def scanText : Scan String := fun cs => do
  let (text, cs) ← scanCharacters (cs.length + 1) cs
  some (String.ofList text, cs)

/-! ### Numbers -/

/-- The parts of a number as it is written. -/
structure NumberParts where
  /-- Is there a minus sign? -/
  negative : Bool
  /-- The digits before the point. -/
  whole : List Char
  /-- The digits after the point. -/
  places : List Char
  /-- The power of ten, if one is written. -/
  exponent : Int

/-- The largest significand that is read exactly. -/
def significandBound : Nat :=
  Nat.pow 2 64 - 1

/-- The significand of the digits before the point, and the number of those that it has no room
for: from the first such digit on, all digits only count. -/
def wholeSignificand : List Char → Nat → Nat × Nat
  | [], s => (s, 0)
  | c :: cs, s =>
    let next := 10 * s + Scan.digitValue c
    if significandBound < next then (s, (c :: cs).length) else wholeSignificand cs next

/-- The significand continued by the digits after the point, and the number of those that it has
room for. -/
def placesSignificand : List Char → Nat → Nat → Nat × Nat
  | [], s, count => (s, count)
  | c :: cs, s, count =>
    let next := 10 * s + Scan.digitValue c
    if significandBound < next then (s, count) else placesSignificand cs next (count + 1)

/-- Is a number too large for a real? The significand is rounded to a real, and so is the power of
ten that it is multiplied by. -/
def NumberParts.isTooLarge (n : NumberParts) : Bool :=
  let (s, dropped) := wholeSignificand n.whole 0
  let (s, kept) := placesSignificand n.places s 0
  let exponent := n.exponent + dropped - kept
  if s = 0 ∨ exponent < 0 then false
  else if 308 < exponent then true
  else ((Binary64.ofNat s).mulUnsigned (Binary64.ofNat (Nat.pow 10 exponent.toNat))).isInfinite

/-- The digits before the point: a lone zero, or digits that do not start with zero. -/
def scanWhole : Scan (List Char)
  | '0' :: cs => some (['0'], cs)
  | cs => Scan.span1 Scan.isDigit cs

/-- The point and the digits after it, if there is a point. -/
def scanPlaces : Scan (List Char)
  | '.' :: cs => Scan.span1 Scan.isDigit cs
  | cs => some ([], cs)

/-- The digits of a power of ten, after its sign. -/
def scanExponentDigits (sign : Int) : Scan Int := fun cs => do
  let (digits, cs) ← Scan.span1 Scan.isDigit cs
  some (sign * Scan.decimalValue digits, cs)

/-- The power of ten after an `e`, with or without a sign. -/
def scanSignedExponent : Scan Int
  | '+' :: cs => scanExponentDigits 1 cs
  | '-' :: cs => scanExponentDigits (-1) cs
  | cs => scanExponentDigits 1 cs

/-- The power of ten of a number, if one is written. -/
def scanExponent : Scan Int
  | 'e' :: cs => scanSignedExponent cs
  | 'E' :: cs => scanSignedExponent cs
  | cs => some (0, cs)

/-- The parts of a number after its sign. -/
def scanUnsigned (negative : Bool) : Scan NumberParts := fun cs => do
  let (whole, cs) ← scanWhole cs
  let (places, cs) ← scanPlaces cs
  let (exponent, cs) ← scanExponent cs
  some (⟨negative, whole, places, exponent⟩, cs)

/-- A number. -/
def scanNumber : Scan Json := fun cs => do
  let (parts, rest) ← match cs with
    | '-' :: ds => scanUnsigned true ds
    | ds => scanUnsigned false ds
  if parts.isTooLarge then none
  else some (.number (String.ofList (cs.take (cs.length - rest.length))), rest)

/-! ### Values -/

/-- A blank between tokens. -/
def isBlank (c : Char) : Bool :=
  c == ' ' || c == '\n' || c == '\t' || c == '\r'

/-- What follows the blanks. -/
def skipBlanks (cs : List Char) : List Char :=
  cs.dropWhile isBlank

/-- Arrays and objects are nested less deeply than this. -/
def depthLimit : Nat :=
  128

mutual

/-- A value, blanks before it allowed. `depth` is what is left of the nesting, and `fuel` bounds the
number of steps. -/
def scanValue (fuel : Nat) (depth : Nat) (cs : List Char) : Option (Json × List Char) :=
  match fuel with
  | 0 => none
  | fuel + 1 =>
    match skipBlanks cs with
    | '"' :: cs => do
      let (s, cs) ← scanText cs
      some (.string s, cs)
    | '[' :: cs =>
      if depth ≤ 1 then none
      else
        match skipBlanks cs with
        | ']' :: cs => some (.array [], cs)
        | cs => do
          let (vs, cs) ← scanItems fuel (depth - 1) cs
          some (.array vs, cs)
    | '\x7b' :: cs =>
      if depth ≤ 1 then none
      else
        match skipBlanks cs with
        | '\x7d' :: cs => some (.object [], cs)
        | cs => do
          let (ms, cs) ← scanMembers fuel (depth - 1) cs
          some (.object ms, cs)
    | 'n' :: cs => (Scan.exact ['u', 'l', 'l'] cs).map fun cs => (.null, cs)
    | 't' :: cs => (Scan.exact ['r', 'u', 'e'] cs).map fun cs => (.bool true, cs)
    | 'f' :: cs => (Scan.exact ['a', 'l', 's', 'e'] cs).map fun cs => (.bool false, cs)
    | cs => scanNumber cs

/-- The items of an array, at least one, and its closing bracket. -/
def scanItems (fuel : Nat) (depth : Nat) (cs : List Char) : Option (List Json × List Char) :=
  match fuel with
  | 0 => none
  | fuel + 1 => do
    let (v, cs) ← scanValue fuel depth cs
    match skipBlanks cs with
    | ',' :: cs => do
      let (vs, cs) ← scanItems fuel depth cs
      some (v :: vs, cs)
    | ']' :: cs => some ([v], cs)
    | _ => none

/-- The members of an object, at least one, and its closing brace. -/
def scanMembers (fuel : Nat) (depth : Nat) (cs : List Char) :
    Option (List (String × Json) × List Char) :=
  match fuel with
  | 0 => none
  | fuel + 1 =>
    match skipBlanks cs with
    | '"' :: cs => do
      let (name, cs) ← scanText cs
      match skipBlanks cs with
      | ':' :: cs => do
        let (v, cs) ← scanValue fuel depth cs
        match skipBlanks cs with
        | ',' :: cs => do
          let (ms, cs) ← scanMembers fuel depth cs
          some ((name, v) :: ms, cs)
        | '\x7d' :: cs => some ([(name, v)], cs)
        | _ => none
      | _ => none
    | _ => none

end

/-- The value of a JSON text. Every step takes a character or follows one that does, so twice the
length of the text bounds their number. -/
def read? (text : String) : Option Json :=
  let cs := text.toList
  match scanValue (2 * cs.length + 2) depthLimit cs with
  | some (v, rest) => if (skipBlanks rest).isEmpty then some v else none
  | none => none

end Json

end BoundedLogic
