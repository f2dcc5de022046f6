/-
  TOML documents as trees, and the rules that say which tables
  may still be extended.

  A table written in braces is closed at once. A table opened by
  a header may not be opened again, nor extended by dotted keys
  from elsewhere. A dotted key gives its value to a table that
  dotted keys made; on the way there it may also pass tables that
  only lie on the way to a header's, and the latest of tables
  under one name. Subtables may be added to all but the tables
  in braces.

  Key definitions include:
    * `Toml.Node`
    * `Toml.Entries.set?`
    * `Toml.Entries.openTable?`
    * `Toml.Entries.openArray?`
    * `Toml.Entries.within?`
-/

namespace RegisterVM

namespace Toml

------------------------------------------------------------
-- Nodes
------------------------------------------------------------

/- How a table came about. -/
inductive Origin where
  /- Written in braces. -/
  | inline
  /- Opened by a header. -/
  | header
  /- On the way to another table. -/
  | implied
  /- Made by a dotted key. -/
  | dotted
  deriving DecidableEq, Repr

/- A value of a document. -/
inductive Node where
  | string (s : String)
  | integer (n : Int)
  | float
  | boolean (b : Bool)
  /- A date, a time or both. -/
  | moment
  | array (items : List Node)
  | table (origin : Origin) (entries : List (String × Node))
  /- Tables opened under one name, latest first. -/
  | tables (items : List (List (String × Node)))
  deriving Inhabited

/- The keys of a table with their values, in order. -/
abbrev Entries :=
  List (String × Node)

namespace Entries

/- Replace the value of a key that is present. -/
def replace
    (entries : Entries)
    (key : String)
    (node : Node) : Entries :=
  entries.map fun entry => if entry.1 = key then (key, node) else entry

------------------------------------------------------------
-- Dotted keys
------------------------------------------------------------

/-
  Give a key a value. The path before the key ends in a table
  that dotted keys made, and the key must be new there.
-/
def set?
    (key : String)
    (node : Node) : (path : List String) → Entries → Option Entries
  | [], entries =>
    match entries.lookup key with
    | some _ => none
    | none => some (entries ++ [(key, node)])
  | first :: path, entries =>
    match entries.lookup first with
    | none => do
      let inner ← set? key node path []
      return entries ++ [(first, .table .dotted inner)]
    | some (.table .dotted inner) => do
      let inner ← set? key node path inner
      return entries.replace first (.table .dotted inner)
    | some (.table .implied inner) => do
      guard (!path.isEmpty)
      let inner ← set? key node path inner
      return entries.replace first (.table .implied inner)
    | some (.tables (latest :: earlier)) => do
      guard (!path.isEmpty)
      let latest ← set? key node path latest
      return entries.replace first (.tables (latest :: earlier))
    | some _ => none

------------------------------------------------------------
-- Headers
------------------------------------------------------------

/-
  Change the table that a path leads to. Tables on the way are
  made as needed, and of tables under one name the latest is
  meant.
-/
def within?
    (change : Entries → Option Entries) :
    (path : List String) → Entries → Option Entries
  | [], entries => change entries
  | first :: path, entries =>
    match entries.lookup first with
    | none => do
      let inner ← within? change path []
      return entries ++ [(first, .table .implied inner)]
    | some (.table origin inner) =>
      if origin = .inline then
        none
      else do
        let inner ← within? change path inner
        return entries.replace first (.table origin inner)
    | some (.tables (latest :: earlier)) => do
      let latest ← within? change path latest
      return entries.replace first (.tables (latest :: earlier))
    | some _ => none

/- Open the table of a key. -/
def openTable?
    (key : String)
    (entries : Entries) : Option Entries :=
  match entries.lookup key with
  | none => some (entries ++ [(key, .table .header [])])
  | some (.table .implied inner) =>
    some (entries.replace key (.table .header inner))
  | some _ => none

/- Open a further table under a key. -/
def openArray?
    (key : String)
    (entries : Entries) : Option Entries :=
  match entries.lookup key with
  | none => some (entries ++ [(key, .tables [[]])])
  | some (.tables items) =>
    some (entries.replace key (.tables ([] :: items)))
  | some _ => none

end Entries

end Toml

end RegisterVM
