set_option relaxedAutoImplicit false
set_option autoImplicit false

/-!
# TOML documents

A TOML document is a table: names with values, some of which are tables again. How a table came
about decides what may still be added to it: a header opens a table once, a dotted key adds only to
tables that dotted keys made, and nothing is added to an inline table.

## Main definitions

* `BoundedLogic.Toml` — a TOML value.
* `BoundedLogic.Toml.addKey` — a value under a dotted key.
* `BoundedLogic.Toml.openTable`, `BoundedLogic.Toml.openElement` — the tables that headers open.
-/

namespace BoundedLogic

/-- How a table came about. -/
inductive TableOrigin where
  /-- By a header of its own; the document itself counts as such a table. -/
  | header
  /-- On the way to a table with a header. -/
  | implied
  /-- On the way of a dotted key. -/
  | dotted
  /-- Between braces. -/
  | braces
  deriving DecidableEq, Repr

/-- A TOML value. -/
inductive Toml where
  /-- A text. -/
  | string (s : String)
  /-- An integer of 64 bits. -/
  | integer (i : Int)
  /-- A number with a fraction or a power of ten. Only that it is one is kept. -/
  | float
  /-- A truth value. -/
  | boolean (b : Bool)
  /-- A date, a time, or both. Only that it is one is kept. -/
  | datetime
  /-- A list between brackets. -/
  | array (items : List Toml)
  /-- A table. -/
  | table (origin : TableOrigin) (members : List (String × Toml))
  /-- The tables opened by headers in double brackets, the last one first. -/
  | tables (elements : List (List (String × Toml)))
  deriving Inhabited

namespace Toml

/-- The members of a table. -/
abbrev Members : Type :=
  List (String × Toml)

/-- The value of the member of the given name. -/
def find? (name : String) (ms : Members) : Option Toml :=
  (ms.find? fun m => m.1 == name).map Prod.snd

/-- The members with the one of the given name replaced, or added at the end. -/
def put (name : String) (v : Toml) : Members → Members
  | [] => [(name, v)]
  | (n, w) :: ms => if n = name then (n, v) :: ms else (n, w) :: put name v ms

/-- May a descent pass through a table of this origin? One along a dotted key may not pass through
a table with a header, and none may pass through braces. -/
def allowsDescent (dotted : Bool) : TableOrigin → Bool
  | .header => !dotted
  | .implied => true
  | .dotted => true
  | .braces => false

/-- Change the table at the end of a path. Tables that are missing on the way are made; through
tables with headers in double brackets the path goes by the last one opened. There is no result if
the path meets a value that is not a table or a table that is closed to it. -/
def descend (dotted : Bool) (change : TableOrigin → Members → Option Members) :
    List String → TableOrigin → Members → Option Members
  | [], origin, ms => change origin ms
  | name :: path, _, ms =>
    match find? name ms with
    | none => do
      let origin := if dotted then .dotted else .implied
      let inner ← descend dotted change path origin []
      some (put name (.table origin inner) ms)
    | some (.table origin inner) =>
      if allowsDescent dotted origin then do
        let inner ← descend dotted change path origin inner
        some (put name (.table origin inner) ms)
      else
        none
    | some (.tables (inner :: others)) => do
      let inner ← descend dotted change path .header inner
      some (put name (.tables (inner :: others)) ms)
    | some _ => none

/-- Add a member that is not there yet. A dotted key adds to a table made by a dotted key only. -/
def addMember (dotted : Bool) (name : String) (v : Toml) (origin : TableOrigin) (ms : Members) :
    Option Members :=
  if (origin == .dotted) != dotted then none
  else
    match find? name ms with
    | none => some (ms ++ [(name, v)])
    | some _ => none

/-- Add a value under a dotted key, whose last part is given apart. -/
def addKey (path : List String) (name : String) (v : Toml) (origin : TableOrigin) (ms : Members) :
    Option Members :=
  descend (!path.isEmpty) (addMember (!path.isEmpty) name v) path origin ms

/-- Open the table of a header. A table that was only implied so far is taken over. -/
def openTable (path : List String) (name : String) (ms : Members) : Option Members :=
  descend false (fun _ ms =>
    match find? name ms with
    | none => some (ms ++ [(name, .table .header [])])
    | some (.table .implied inner) => some (put name (.table .header inner) ms)
    | some _ => none) path .header ms

/-- Open one more table of a header in double brackets. -/
def openElement (path : List String) (name : String) (ms : Members) : Option Members :=
  descend false (fun _ ms =>
    match find? name ms with
    | none => some (ms ++ [(name, .tables [[]])])
    | some (.tables elements) => some (put name (.tables ([] :: elements)) ms)
    | some _ => none) path .header ms

end Toml

end BoundedLogic
