import BoundedLogic.Text.Unseen

set_option relaxedAutoImplicit false
set_option autoImplicit false

/-!
# Quoted texts

A text can be shown between quotation marks, with the characters escaped that would not be seen or
would be taken for the end of the text.

## Main definitions

* `BoundedLogic.quotedText` — a text as it is shown.
-/

namespace BoundedLogic

/-- A natural to the base sixteen. -/
def hexText (n : Nat) : String :=
  String.ofList (Nat.toDigits 16 n)

/-- A character as it stands between quotation marks: quotation marks and backslashes after a
backslash, the common control characters by a letter, others that are not seen by their number. -/
def quotedChar (c : Char) : String :=
  if c = '"' then "\\\""
  else if c = '\\' then "\\\\"
  else if c = '\n' then "\\n"
  else if c = '\r' then "\\r"
  else if c = '\t' then "\\t"
  else if c.toNat = 0 then "\\0"
  else if isUnseen c then "\\u\x7b" ++ hexText c.toNat ++ "\x7d"
  else String.singleton c

/-- A text between quotation marks. -/
def quotedText (s : String) : String :=
  "\"" ++ String.join (s.toList.map quotedChar) ++ "\""

end BoundedLogic
