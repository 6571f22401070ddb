set_option relaxedAutoImplicit false
set_option autoImplicit false

/-!
# JSON values and their texts

The members of an object keep their order, and a number is kept as it is written. A value is
written on one line, or with one item a line and two blanks of indentation per level.

## Main definitions

* `BoundedLogic.Json` — a JSON value.
* `BoundedLogic.Json.quoted` — a text in quotation marks.
* `BoundedLogic.Json.compact`, `BoundedLogic.Json.pretty` — the two written forms.
-/

namespace BoundedLogic

/-- A JSON value. -/
inductive Json where
  /-- The value `null`. -/
  | null
  /-- A truth value. -/
  | bool (b : Bool)
  /-- A number, by its text. -/
  | number (text : String)
  /-- A text. -/
  | string (s : String)
  /-- A list of values. -/
  | array (items : List Json)
  /-- A list of members, each a name with a value. -/
  | object (members : List (String × Json))
  deriving Inhabited

namespace Json

/-- The number of a natural. -/
def ofNat (n : Nat) : Json :=
  .number (Nat.repr n)

/-- The number of an integer. -/
def ofInt (i : Int) : Json :=
  .number (Int.repr i)

/-- The array of a list of texts. -/
def ofStrings (ss : List String) : Json :=
  .array (ss.map .string)

/-! ### Texts -/

/-- A digit of a number written to the base sixteen. -/
def hexDigit (n : Nat) : Char :=
  if n < 10 then Char.ofNat (48 + n) else Char.ofNat (87 + n)

/-- A character as it stands between quotation marks. Quotation marks, backslashes and control
characters are escaped, the common ones of these by a letter. -/
def escapeChar (c : Char) : List Char :=
  if c = '"' then ['\\', '"']
  else if c = '\\' then ['\\', '\\']
  else if c = '\n' then ['\\', 'n']
  else if c = '\r' then ['\\', 'r']
  else if c = '\t' then ['\\', 't']
  else if c.toNat = 8 then ['\\', 'b']
  else if c.toNat = 12 then ['\\', 'f']
  else if c.toNat < 32 then
    ['\\', 'u', '0', '0', hexDigit (c.toNat / 16), hexDigit (c.toNat % 16)]
  else [c]

/-- A text between quotation marks. -/
def quoted (s : String) : String :=
  "\"" ++ String.ofList (s.toList.flatMap escapeChar) ++ "\""

/-! ### One line -/

mutual

/-- A value on one line, without blanks. -/
def compact : Json → String
  | .null => "null"
  | .bool b => if b then "true" else "false"
  | .number text => text
  | .string s => quoted s
  | .array vs => "[" ++ ",".intercalate (compactItems vs) ++ "]"
  | .object ms => "\x7b" ++ ",".intercalate (compactMembers ms) ++ "\x7d"

/-- The items of an array, each on one line. -/
def compactItems : List Json → List String
  | [] => []
  | v :: vs => v.compact :: compactItems vs

/-- The members of an object, each on one line. -/
def compactMembers : List (String × Json) → List String
  | [] => []
  | (n, v) :: ms => (quoted n ++ ":" ++ v.compact) :: compactMembers ms

end

/-! ### One item a line -/

/-- A line break and the indentation of a level. -/
def lineBreak (level : Nat) : String :=
  "\n" ++ String.ofList (List.replicate (2 * level) ' ')

/-- Items inside brackets, one a line. Without items the brackets stand together. -/
def bracketed (opening closing : String) (level : Nat) (items : List String) : String :=
  match items with
  | [] => opening ++ closing
  | items =>
    opening ++ lineBreak (level + 1) ++ ("," ++ lineBreak (level + 1)).intercalate items ++
      lineBreak level ++ closing

mutual

/-- A value with one item a line, at a level of indentation. -/
def prettyAt (level : Nat) : Json → String
  | .null => "null"
  | .bool b => if b then "true" else "false"
  | .number text => text
  | .string s => quoted s
  | .array vs => bracketed "[" "]" level (prettyItems (level + 1) vs)
  | .object ms => bracketed "\x7b" "\x7d" level (prettyMembers (level + 1) ms)

/-- The items of an array, at a level of indentation. -/
def prettyItems (level : Nat) : List Json → List String
  | [] => []
  | v :: vs => prettyAt level v :: prettyItems level vs

/-- The members of an object, at a level of indentation. -/
def prettyMembers (level : Nat) : List (String × Json) → List String
  | [] => []
  | (n, v) :: ms => (quoted n ++ ": " ++ prettyAt level v) :: prettyMembers level ms

end

/-- A value with one item a line. -/
def pretty (v : Json) : String :=
  prettyAt 0 v

end Json

end BoundedLogic
