import BoundedLogic.Numeric.Binary64
import BoundedLogic.Numeric.Bounds
import BoundedLogic.Text.Scan
import BoundedLogic.Toml.Basic

set_option relaxedAutoImplicit false
set_option autoImplicit false

/-!
# The parts of a TOML text

Blanks, comments, keys, texts, numbers and dates, each as a scan.

## Main definitions

* `BoundedLogic.Toml.skipLineEnd` — the rest of a line: blanks, a comment, the line break.
* `BoundedLogic.Toml.scanString` — a text of one of the four forms.
* `BoundedLogic.Toml.scanKey` — a dotted key.
* `BoundedLogic.Toml.scanNumber`, `BoundedLogic.Toml.scanDatetime` — numbers and dates.
-/

namespace BoundedLogic

namespace Toml

/-! ### Blanks and comments -/

/-- A blank or a tab. -/
def isBlank (c : Char) : Bool :=
  c == ' ' || c == '\t'

/-- What follows the blanks. -/
def skipBlanks (cs : List Char) : List Char :=
  cs.dropWhile isBlank

/-- A character that may stand anywhere in a line: a tab, or anything that is not a control
character. -/
def isPlain (c : Char) : Bool :=
  c == '\t' || (decide (32 ≤ c.toNat) && decide (c.toNat ≠ 127))

/-- What follows a line break. -/
def skipBreak : List Char → Option (List Char)
  | '\n' :: cs => some cs
  | '\r' :: '\n' :: cs => some cs
  | _ => none

/-- What follows a comment, if there is one. -/
def skipComment : List Char → List Char
  | '#' :: cs => cs.dropWhile isPlain
  | cs => cs

/-- What follows the rest of a line: blanks, perhaps a comment, and the line break or the end. -/
def skipLineEnd (cs : List Char) : Option (List Char) :=
  match skipComment (skipBlanks cs) with
  | [] => some []
  | cs => skipBreak cs

/-- What follows the space between the items of an array: blanks, line breaks, and comments that end
in a line break. There are at most `fuel` lines. -/
def skipSpace : Nat → List Char → List Char
  | 0, cs => cs
  | fuel + 1, cs =>
    match skipBreak (skipComment (skipBlanks cs)) with
    | some cs => skipSpace fuel cs
    | none => skipBlanks cs

/-! ### Texts -/

/-- The character of an escape, after its backslash. -/
def scanEscape : Scan Char
  | 'b' :: cs => some (Char.ofNat 8, cs)
  | 't' :: cs => some ('\t', cs)
  | 'n' :: cs => some ('\n', cs)
  | 'f' :: cs => some (Char.ofNat 12, cs)
  | 'r' :: cs => some ('\r', cs)
  | '"' :: cs => some ('"', cs)
  | '\\' :: cs => some ('\\', cs)
  | 'u' :: cs => do
    let (n, cs) ← Scan.hexadecimal 4 0 cs
    let c ← Scan.codePoint? n
    some (c, cs)
  | 'U' :: cs => do
    let (n, cs) ← Scan.hexadecimal 8 0 cs
    let c ← Scan.codePoint? n
    some (c, cs)
  | _ => none

/-- The characters of a text in quotation marks, after the opening one. -/
def scanBasic : Nat → Scan (List Char)
  | 0, _ => none
  | _ + 1, [] => none
  | _ + 1, '"' :: cs => some ([], cs)
  | fuel + 1, '\\' :: cs => do
    let (c, cs) ← scanEscape cs
    let (text, cs) ← scanBasic fuel cs
    some (c :: text, cs)
  | fuel + 1, c :: cs =>
    if isPlain c then do
      let (text, cs) ← scanBasic fuel cs
      some (c :: text, cs)
    else none

/-- The characters of a text in single quotes, after the opening one. -/
def scanLiteral : Scan (List Char)
  | [] => none
  | '\'' :: cs => some ([], cs)
  | c :: cs =>
    if isPlain c then do
      let (text, cs) ← scanLiteral cs
      some (c :: text, cs)
    else none

/-- The end of a text of several lines: three quotes, before which one or two more may stand that
belong to the text. -/
def scanTripleEnd (quote : Char) (cs : List Char) : Option (List Char × List Char) :=
  match Scan.exact (List.replicate 5 quote) cs with
  | some cs => some ([quote, quote], cs)
  | none =>
    match Scan.exact (List.replicate 4 quote) cs with
    | some cs => some ([quote], cs)
    | none => (Scan.exact (List.replicate 3 quote) cs).map fun cs => ([], cs)

/-- What follows blanks and line breaks. -/
def skipWhite : List Char → List Char
  | '\n' :: cs => skipWhite cs
  | '\r' :: '\n' :: cs => skipWhite cs
  | c :: cs => if isBlank c then skipWhite cs else c :: cs
  | [] => []

/-- What follows a backslash at the end of a line: the line break and all blanks and line breaks
after it. -/
def skipFoldedLines (cs : List Char) : Option (List Char) := do
  let cs ← skipBreak (skipBlanks cs)
  some (skipWhite cs)

/-- The characters of a text of several lines in quotation marks. -/
def scanBasicLines : Nat → Scan (List Char)
  | 0, _ => none
  | _ + 1, [] => none
  | fuel + 1, '\\' :: cs =>
    match skipFoldedLines cs with
    | some cs => scanBasicLines fuel cs
    | none => do
      let (c, cs) ← scanEscape cs
      let (text, cs) ← scanBasicLines fuel cs
      some (c :: text, cs)
  | fuel + 1, c :: cs =>
    match scanTripleEnd '"' (c :: cs), skipBreak (c :: cs) with
    | some found, _ => some found
    | none, some cs => do
      let (text, cs) ← scanBasicLines fuel cs
      some ('\n' :: text, cs)
    | none, none =>
      if isPlain c then do
        let (text, cs) ← scanBasicLines fuel cs
        some (c :: text, cs)
      else none

/-- The characters of a text of several lines in single quotes. -/
def scanLiteralLines : Nat → Scan (List Char)
  | 0, _ => none
  | _ + 1, [] => none
  | fuel + 1, c :: cs =>
    match scanTripleEnd '\'' (c :: cs), skipBreak (c :: cs) with
    | some found, _ => some found
    | none, some cs => do
      let (text, cs) ← scanLiteralLines fuel cs
      some ('\n' :: text, cs)
    | none, none =>
      if isPlain c then do
        let (text, cs) ← scanLiteralLines fuel cs
        some (c :: text, cs)
      else none

/-- What follows a line break right after three opening quotes. -/
def skipFirstBreak (cs : List Char) : List Char :=
  (skipBreak cs).getD cs

/-- A text on one line, of fewer than `fuel` characters. -/
def scanLineString (fuel : Nat) : Scan String
  | '"' :: cs => (scanBasic fuel cs).map fun (text, cs) => (String.ofList text, cs)
  | '\'' :: cs => (scanLiteral cs).map fun (text, cs) => (String.ofList text, cs)
  | _ => none

/-- A text of any form, of fewer than `fuel` characters. -/
def scanString (fuel : Nat) : Scan String
  | '"' :: '"' :: '"' :: cs =>
    (scanBasicLines fuel (skipFirstBreak cs)).map fun (text, cs) => (String.ofList text, cs)
  | '\'' :: '\'' :: '\'' :: cs =>
    (scanLiteralLines fuel (skipFirstBreak cs)).map fun (text, cs) => (String.ofList text, cs)
  | cs => scanLineString fuel cs

/-! ### Keys -/

/-- A character of a key without quotes. -/
def isKeyChar (c : Char) : Bool :=
  c.isAlphanum || c == '_' || c == '-'

/-- One part of a key. -/
def scanKeyPart : Scan String
  | '"' :: cs => scanLineString (cs.length + 1) ('"' :: cs)
  | '\'' :: cs => scanLineString (cs.length + 1) ('\'' :: cs)
  | cs => (Scan.span1 isKeyChar cs).map fun (text, cs) => (String.ofList text, cs)

/-- The parts of a dotted key, blanks around each of them allowed. There are at most `fuel`. -/
def scanKeyParts : Nat → Scan (List String)
  | 0, _ => none
  | fuel + 1, cs => do
    let (part, cs) ← scanKeyPart (skipBlanks cs)
    match skipBlanks cs with
    | '.' :: cs => do
      let (parts, cs) ← scanKeyParts fuel cs
      some (part :: parts, cs)
    | cs => some ([part], cs)

/-- Keys and nested values have fewer parts and levels than this. -/
def depthLimit : Nat :=
  80

/-- A dotted key: the parts before the last one, and the last one. -/
def scanKey : Scan (List String × String) := fun cs => do
  let (parts, cs) ← scanKeyParts (cs.length + 1) cs
  let name ← parts.getLast?
  if parts.length < depthLimit then some ((parts.dropLast, name), cs) else none

/-! ### Numbers -/

/-- Digits after the first one, each with an underscore before it allowed. -/
def moreDigits (test : Char → Bool) : List Char → List Char × List Char
  | '_' :: c :: cs =>
    if test c then
      let (digits, cs) := moreDigits test cs
      (c :: digits, cs)
    else ([], '_' :: c :: cs)
  | c :: cs =>
    if test c then
      let (digits, cs) := moreDigits test cs
      (c :: digits, cs)
    else ([], c :: cs)
  | [] => ([], [])

/-- Digits, of which each but the first may have an underscore before it. -/
def scanDigits (test : Char → Bool) : Scan (List Char)
  | c :: cs =>
    if test c then
      let (digits, cs) := moreDigits test cs
      some (c :: digits, cs)
    else none
  | [] => none

/-- The digits of a number in base ten: a lone zero, or digits that do not start with zero. -/
def scanWhole : Scan (List Char)
  | '0' :: cs => some (['0'], cs)
  | cs => scanDigits Scan.isDigit cs

/-- A sign, if there is one: is it a minus? -/
def scanSign : List Char → Option Bool × List Char
  | '+' :: cs => (some false, cs)
  | '-' :: cs => (some true, cs)
  | cs => (none, cs)

/-- The integer, if it has 64 bits. -/
def checkedInteger (i : Int) : Option Toml :=
  if fitsInt64 i then some (.integer i) else none

/-- The digit test of a base: hexadecimal, octal or binary. -/
def isDigitOf (base : Nat) (c : Char) : Bool :=
  match Scan.hexValue? c with
  | some d => decide (d < base)
  | none => false

/-- The value of digits in a base. -/
def valueOf (base : Nat) (digits : List Char) : Nat :=
  digits.foldl (fun n c => base * n + (Scan.hexValue? c).getD 0) 0

/-- An integer in a base other than ten, after its mark. -/
def scanBased (base : Nat) : Scan Toml := fun cs => do
  let (digits, cs) ← scanDigits (isDigitOf base) cs
  let v ← checkedInteger (valueOf base digits)
  some (v, cs)

/-- The decimal places after a point. -/
def scanPlaces : Scan (List Char)
  | '.' :: cs => scanDigits Scan.isDigit cs
  | cs => some ([], cs)

/-- A power of ten, if one is written. -/
def scanExponent : Scan (Option Int) := fun cs =>
  match cs with
  | c :: cs =>
    if c = 'e' ∨ c = 'E' then do
      let (sign, cs) := scanSign cs
      let (digits, cs) ← scanDigits Scan.isDigit cs
      let n : Int := Scan.decimalValue digits
      some (some (if sign = some true then -n else n), cs)
    else some (none, c :: cs)
  | [] => some (none, [])

/-- Is the number of the given digits times a power of ten too large for a real? -/
def isTooLarge (digits : List Char) (exponent : Int) : Bool :=
  let n := Scan.decimalValue digits
  let size : Int := (Nat.repr n).length + exponent
  if n = 0 ∨ size < 300 then false
  else if 400 < size then true
  else
    (Binary64.ofRatio (n * Nat.pow 10 exponent.toNat) (Nat.pow 10 (-exponent).toNat)).isInfinite

/-- The words for infinity and for what is no number. -/
def scanSpecial : List Char → Option (List Char) := fun cs =>
  match Scan.exact ['i', 'n', 'f'] cs with
  | some cs => some cs
  | none => Scan.exact ['n', 'a', 'n'] cs

/-- A number in base ten, after its sign. A positive number that is too large is refused. -/
def scanDecimal (negative : Bool) : Scan Toml := fun cs =>
  match scanSpecial cs with
  | some rest => some (.float, rest)
  | none => do
    let (whole, rest) ← scanWhole cs
    let (places, rest) ← scanPlaces rest
    let (exponent, rest) ← scanExponent rest
    if places.isEmpty ∧ exponent = none then do
      let n : Int := Scan.decimalValue whole
      let v ← checkedInteger (if negative then -n else n)
      some (v, rest)
    else if !negative && isTooLarge (whole ++ places) (exponent.getD 0 - places.length) then none
    else some (.float, rest)

/-- A number. -/
def scanNumber : Scan Toml
  | '0' :: 'x' :: cs => scanBased 16 cs
  | '0' :: 'o' :: cs => scanBased 8 cs
  | '0' :: 'b' :: cs => scanBased 2 cs
  | cs =>
    let (sign, rest) := scanSign cs
    scanDecimal (sign = some true) rest

/-! ### Dates and times -/

/-- A number of exactly `count` digits between two bounds. -/
def scanField (count low high : Nat) : Scan Nat := fun cs =>
  let digits := (cs.take count).takeWhile Scan.isDigit
  let n := Scan.decimalValue digits
  if digits.length = count ∧ low ≤ n ∧ n ≤ high then some (n, cs.drop count) else none

/-- The number of days of a month. -/
def daysOf (year month : Nat) : Nat :=
  if month = 2 then
    if year % 4 = 0 ∧ (year % 100 ≠ 0 ∨ year % 400 = 0) then 29 else 28
  else if month = 4 ∨ month = 6 ∨ month = 9 ∨ month = 11 then 30
  else 31

/-- What follows a date. -/
def skipDate (cs : List Char) : Option (List Char) := do
  let (year, cs) ← scanField 4 0 9999 cs
  let cs ← Scan.exact ['-'] cs
  let (month, cs) ← scanField 2 1 12 cs
  let cs ← Scan.exact ['-'] cs
  let (_, cs) ← scanField 2 1 (daysOf year month) cs
  some cs

/-- What follows a time. A second may be a leap second. -/
def skipTime (cs : List Char) : Option (List Char) := do
  let (_, cs) ← scanField 2 0 23 cs
  let cs ← Scan.exact [':'] cs
  let (_, cs) ← scanField 2 0 59 cs
  let cs ← Scan.exact [':'] cs
  let (_, cs) ← scanField 2 0 60 cs
  match cs with
  | '.' :: ds =>
    match Scan.span1 Scan.isDigit ds with
    | some (_, ds) => some ds
    | none => some cs
  | cs => some cs

/-- What follows the distance of a time from the universal one. -/
def skipOffset : List Char → Option (List Char)
  | 'Z' :: cs => some cs
  | 'z' :: cs => some cs
  | c :: cs =>
    if c = '+' ∨ c = '-' then do
      let (_, cs) ← scanField 2 0 23 cs
      let cs ← Scan.exact [':'] cs
      let (_, cs) ← scanField 2 0 59 cs
      some cs
    else none
  | [] => none

/-- What follows a time and its distance from the universal one, after a date. -/
def skipTimeOfDate : List Char → Option (List Char)
  | c :: cs =>
    if c = 'T' ∨ c = 't' ∨ c = ' ' then do
      let cs ← skipTime cs
      some ((skipOffset cs).getD cs)
    else none
  | [] => none

/-- A date, a time, or both. -/
def scanDatetime : Scan Toml := fun cs =>
  match skipDate cs with
  | some rest => some (.datetime, (skipTimeOfDate rest).getD rest)
  | none => (skipTime cs).map fun rest => (.datetime, rest)

end Toml

end BoundedLogic
