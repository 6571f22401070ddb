import BoundedLogic.Toml.Scan

set_option relaxedAutoImplicit false
set_option autoImplicit false

/-!
# Reading TOML

A TOML text is read line by line: a header opens a table, a key with a value adds to the table
opened last. What has been added cannot be added again.

## Main definitions

* `BoundedLogic.Toml.scanValue` — a value.
* `BoundedLogic.Toml.read?` — the members of a TOML document.
-/

namespace BoundedLogic

namespace Toml

/-! ### Values -/

mutual

/-- A value. `depth` is what is left of the nesting, and `fuel` bounds the number of steps. -/
def scanValue (fuel depth : Nat) (cs : List Char) : Option (Toml × List Char) :=
  match fuel with
  | 0 => none
  | fuel + 1 =>
    match cs with
    | '[' :: cs =>
      if depth ≤ 1 then none
      else do
        let (vs, cs) ← scanItems fuel (depth - 1) cs
        some (.array vs, cs)
    | '\x7b' :: cs =>
      if depth ≤ 1 then none
      else
        match skipBlanks cs with
        | '\x7d' :: cs => some (.table .braces [], cs)
        | cs => do
          let (ms, cs) ← scanMembers fuel (depth - 1) [] cs
          some (.table .braces ms, cs)
    | '"' :: _ => (scanString fuel cs).map fun (s, cs) => (.string s, cs)
    | '\'' :: _ => (scanString fuel cs).map fun (s, cs) => (.string s, cs)
    | 't' :: cs => (Scan.exact ['r', 'u', 'e'] cs).map fun cs => (.boolean true, cs)
    | 'f' :: cs => (Scan.exact ['a', 'l', 's', 'e'] cs).map fun cs => (.boolean false, cs)
    | cs =>
      match scanDatetime cs with
      | some found => some found
      | none => scanNumber cs

/-- The items of an array and its closing bracket. A comma may stand after the last item. -/
def scanItems (fuel depth : Nat) (cs : List Char) : Option (List Toml × List Char) :=
  match fuel with
  | 0 => none
  | fuel + 1 =>
    match skipSpace fuel cs with
    | ']' :: cs => some ([], cs)
    | cs => do
      let (v, cs) ← scanValue fuel depth cs
      match skipSpace fuel cs with
      | ',' :: cs => do
        let (vs, cs) ← scanItems fuel depth cs
        some (v :: vs, cs)
      | ']' :: cs => some ([v], cs)
      | _ => none

/-- The members of a table in braces, at least one, after those already read, and its closing
brace. -/
def scanMembers (fuel depth : Nat) (ms : Members) (cs : List Char) :
    Option (Members × List Char) :=
  match fuel with
  | 0 => none
  | fuel + 1 => do
    let ((path, name), cs) ← scanKey cs
    let cs ← Scan.exact ['='] cs
    let (v, cs) ← scanValue fuel depth (skipBlanks cs)
    let ms ← addKey path name v .braces ms
    match skipBlanks cs with
    | ',' :: cs => scanMembers fuel depth ms cs
    | '\x7d' :: cs => some (ms, cs)
    | _ => none

end

/-! ### Documents -/

/-- A document as far as it has been read. -/
structure Document where
  /-- The path of the table opened last. -/
  path : List String
  /-- The members of the document. -/
  members : Members

/-- The document with a value under a dotted key in the table opened last. -/
def Document.add (d : Document) (path : List String) (name : String) (v : Toml) :
    Option Document := do
  let members ← descend false (addKey path name v) d.path .header d.members
  some { d with members }

/-- The document with the table of a header opened. -/
def Document.openHeader (d : Document) (inArray : Bool) (path : List String) (name : String) :
    Option Document := do
  let members ← (if inArray then openElement else openTable) path name d.members
  some ⟨path ++ [name], members⟩

/-- A header, after its first bracket. -/
def readHeader (d : Document) (cs : List Char) : Option (Document × List Char) :=
  match cs with
  | '[' :: cs => do
    let ((path, name), cs) ← scanKey cs
    let cs ← Scan.exact [']', ']'] cs
    let cs ← skipLineEnd cs
    let d ← d.openHeader true path name
    some (d, cs)
  | cs => do
    let ((path, name), cs) ← scanKey cs
    let cs ← Scan.exact [']'] cs
    let cs ← skipLineEnd cs
    let d ← d.openHeader false path name
    some (d, cs)

/-- A key with its value. Every step of reading the value takes a character or follows one that
does. -/
def readKeyValue (d : Document) (cs : List Char) : Option (Document × List Char) := do
  let ((path, name), cs) ← scanKey cs
  let cs ← Scan.exact ['='] cs
  let (v, cs) ← scanValue (2 * cs.length + 2) depthLimit (skipBlanks cs)
  let cs ← skipLineEnd cs
  let d ← d.add path name v
  some (d, cs)

/-- The rest of a document, line by line. There are at most `fuel` lines. -/
def readLines : Nat → Document → List Char → Option Document
  | 0, _, _ => none
  | fuel + 1, d, cs =>
    match skipBlanks cs with
    | [] => some d
    | '#' :: cs => do
      let cs ← skipLineEnd ('#' :: cs)
      readLines fuel d cs
    | '[' :: cs => do
      let (d, cs) ← readHeader d cs
      readLines fuel d cs
    | cs =>
      match skipBreak cs with
      | some cs => readLines fuel d cs
      | none => do
        let (d, cs) ← readKeyValue d cs
        readLines fuel d cs

/-- A text without the mark of its encoding. -/
def skipMark : List Char → List Char
  | '\uFEFF' :: cs => cs
  | cs => cs

/-- The members of a TOML document. -/
def read? (text : String) : Option Members := do
  let cs := skipMark text.toList
  let d ← readLines (cs.length + 1) ⟨[], []⟩ cs
  some d.members

end Toml

end BoundedLogic
