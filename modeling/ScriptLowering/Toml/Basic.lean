/-!
# TOML documents

* `Toml` — a value of a TOML document;
* `Toml.Origin` — how a table came into being, which decides how it may grow;
* `Toml.put?` — a table with a value put under a dotted key;
* `Toml.declare?`, `Toml.declareNext?` — a table with a further table, or a further table of an array of
  tables, declared in it;
* `Toml.within?` — a change inside the table that a header names.

No key is given twice, and no table is declared twice.
-/

namespace ScriptLowering

/-- How a table came into being. -/
inductive Toml.Origin where
  /-- By its own header. -/
  | header
  /-- By the header of a table inside it. -/
  | implied
  /-- By a dotted key. -/
  | dotted
  /-- By braces. -/
  | inline
deriving DecidableEq

/-- A value of a TOML document. -/
inductive Toml where
  | string (value : String)
  | boolean (value : Bool)
  /-- A number, kept as its text. -/
  | number (text : String)
  /-- A date, a time or both, kept as text. -/
  | moment (text : String)
  | list (items : List Toml)
  | table (origin : Toml.Origin) (entries : List (String × Toml))
  /-- An array of tables, each declared by a header of its own. -/
  | tables (items : List (List (String × Toml)))

namespace Toml

/-- The keys of a table with their values, in order of appearance. -/
abbrev Entries := List (String × Toml)

/-- The value under a key. -/
def find? (key : String) : Entries → Option Toml
  | [] => none
  | (other, value) :: rest => if other = key then some value else find? key rest

/-- The table with another value under a key that it has. -/
def replace (key : String) (value : Toml) : Entries → Entries
  | [] => []
  | (other, old) :: rest =>
    if other = key then (key, value) :: rest else (other, old) :: replace key value rest

/-- The table with a value put under a dotted key.  The value goes into a table that dotted keys made.  The way
there may lead through tables that are merely implied, and through the last table of an array of tables. -/
def put? (value : Toml) : List String → Entries → Option Entries
  | [], _ => none
  | [key], entries =>
    match find? key entries with
    | none => some (entries ++ [(key, value)])
    | some _ => none
  | key :: next :: path, entries =>
    match find? key entries with
    | none => do
      let inner ← put? value (next :: path) []
      return entries ++ [(key, .table .dotted inner)]
    | some (.table .dotted inner) => do
      let inner ← put? value (next :: path) inner
      return replace key (.table .dotted inner) entries
    | some (.table .implied inner) =>
      if path.isEmpty then none
      else do
        let inner ← put? value (next :: path) inner
        return replace key (.table .implied inner) entries
    | some (.tables items) =>
      if path.isEmpty then none
      else
        match items.getLast? with
        | none => none
        | some last => do
          let last ← put? value (next :: path) last
          return replace key (.tables (items.dropLast ++ [last])) entries
    | some _ => none

/-- The table with a table declared in it. -/
def declare? (key : String) (entries : Entries) : Option Entries :=
  match find? key entries with
  | none => some (entries ++ [(key, .table .header [])])
  | some (.table .implied inner) => some (replace key (.table .header inner) entries)
  | some _ => none

/-- The table with a further table declared in one of its arrays of tables. -/
def declareNext? (key : String) (entries : Entries) : Option Entries :=
  match find? key entries with
  | none => some (entries ++ [(key, .tables [[]])])
  | some (.tables items) => some (replace key (.tables (items ++ [[]])) entries)
  | some _ => none

/-- The table with a change inside the table at the given path.  Tables on the way come into being when they
are missing, and the last table of an array of tables is the one that is meant. -/
def within? (change : Entries → Option Entries) : List String → Entries → Option Entries
  | [], entries => change entries
  | key :: path, entries =>
    match find? key entries with
    | none => do
      let inner ← within? change path []
      return entries ++ [(key, .table .implied inner)]
    | some (.table .inline _) => none
    | some (.table origin inner) => do
      let inner ← within? change path inner
      return replace key (.table origin inner) entries
    | some (.tables items) =>
      match items.getLast? with
      | none => none
      | some last => do
        let last ← within? change path last
        return replace key (.tables (items.dropLast ++ [last])) entries
    | some _ => none

end Toml

end ScriptLowering
