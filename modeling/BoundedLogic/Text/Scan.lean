set_option relaxedAutoImplicit false
set_option autoImplicit false

/-!
# Scanning

A scan takes something off the front of a list of characters and leaves the rest, or fails. The
readers of this library are put together from the scans in this module and from their own.

## Main definitions

* `BoundedLogic.Scan` — a scan.
* `BoundedLogic.Scan.span`, `BoundedLogic.Scan.exact`, `BoundedLogic.Scan.hexadecimal` — runs of
  characters, fixed words and hexadecimal numbers.
-/

namespace BoundedLogic

/-- A scan: what was found at the front of a list of characters, and the rest. -/
abbrev Scan (α : Type) : Type :=
  List Char → Option (α × List Char)

namespace Scan

/-- The characters at the front that satisfy a test. -/
def span (test : Char → Bool) (cs : List Char) : List Char × List Char :=
  (cs.takeWhile test, cs.dropWhile test)

/-- A nonempty run of characters that satisfy a test. -/
def span1 (test : Char → Bool) : Scan (List Char) := fun cs =>
  match span test cs with
  | ([], _) => none
  | found => some found

/-- A fixed word. -/
def exact : List Char → List Char → Option (List Char)
  | [], cs => some cs
  | w :: ws, c :: cs => if w = c then exact ws cs else none
  | _ :: _, [] => none

/-- A decimal digit. -/
def isDigit (c : Char) : Bool :=
  decide ('0' ≤ c ∧ c ≤ '9')

/-- The value of a decimal digit. -/
def digitValue (c : Char) : Nat :=
  c.toNat - 48

/-- The value of a run of decimal digits. -/
def decimalValue (cs : List Char) : Nat :=
  cs.foldl (fun n c => 10 * n + digitValue c) 0

/-- The value of a hexadecimal digit. -/
def hexValue? (c : Char) : Option Nat :=
  if '0' ≤ c ∧ c ≤ '9' then some (c.toNat - 48)
  else if 'a' ≤ c ∧ c ≤ 'f' then some (c.toNat - 87)
  else if 'A' ≤ c ∧ c ≤ 'F' then some (c.toNat - 55)
  else none

/-- A number of exactly `count` hexadecimal digits. -/
def hexadecimal : Nat → Nat → Scan Nat
  | 0, value, cs => some (value, cs)
  | _ + 1, _, [] => none
  | count + 1, value, c :: cs =>
    match hexValue? c with
    | some d => hexadecimal count (16 * value + d) cs
    | none => none

/-- The character of a code point, which must not be a surrogate or out of range. -/
def codePoint? (n : Nat) : Option Char :=
  if n.isValidChar then some (Char.ofNat n) else none

end Scan

end BoundedLogic
