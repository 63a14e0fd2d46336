import TypedFlux.Number.Binary64

/-
  TOML documents as values.

  Key definitions include:
    * `Toml`
    * `Origin`
    * `Toml.modify`
    * `Toml.addEntry`
    * `Toml.openTable`, `Toml.openArray`
-/

namespace TypedFlux

------------------------------------------------------------
-- Values
------------------------------------------------------------

/-
  How a table came about: written inline, by a dotted key in an
  inline table, on the way to a header's table, by a dotted key,
  or by a header of its own.
-/
inductive Origin where
  | inline
  | inlineKey
  | passed
  | key
  | header
deriving DecidableEq, Repr

/-
  A value.  Times are kept as written.  `tables` is an array of
  tables that were begun by headers.
-/
inductive Toml where
  | string (s : String)
  | integer (n : Int)
  | float (x : Binary64)
  | boolean (b : Bool)
  | time (written : String)
  | array (items : List Toml)
  | table (origin : Origin) (entries : List (String × Toml))
  | tables (items : List (List (String × Toml)))

namespace Toml

/- The entries of a table, in the order of their addition. -/
abbrev Entries :=
  List (String × Toml)

------------------------------------------------------------
-- Changes Along a Path
------------------------------------------------------------

/- Replace the value of a key that is present. -/
def replace
    (entries : Entries)
    (key : String)
    (value : Toml) : Entries :=
  entries.map fun entry =>
    if entry.1 = key then (key, value) else entry

/-
  Whether a path may lead through a table.  `fresh` is the
  origin that the path gives to tables it has to add: headers
  pass all tables that are not inline, keys only those that no
  header began.
-/
def Origin.admits : Origin → Origin → Bool
  | .passed, .passed | .passed, .key | .passed, .header => true
  | .key, .passed | .key, .key => true
  | .inlineKey, .inlineKey => true
  | _, _ => false

/-
  Change the table at the end of a path.  Tables that are
  missing on the way are added, and of an array of tables the
  last one is meant.
-/
def modify
    (fresh : Origin)
    (change : Origin → Entries → Option Entries) :
    List String → Origin → Entries → Option Entries
  | [], origin, entries => change origin entries
  | key :: path, _, entries =>
      match entries.lookup key with
      | none => do
          let inner ← modify fresh change path fresh []
          return entries ++ [(key, .table fresh inner)]
      | some (.table origin inner) =>
          if Origin.admits fresh origin then do
            let inner ← modify fresh change path origin inner
            return replace entries key (.table origin inner)
          else none
      | some (.tables items) => do
          let last ← items.getLast?
          let last ← modify fresh change path .header last
          return replace entries key
            (.tables (items.dropLast ++ [last]))
      | some _ => none

------------------------------------------------------------
-- Entries
------------------------------------------------------------

/-
  Add an entry under a dotted key.  A key is given once, and
  dotted keys add only to tables that dotted keys began.
-/
def addEntry
    (fresh : Origin)
    (path : List String)
    (key : String)
    (value : Toml)
    (origin : Origin)
    (entries : Entries) : Option Entries :=
  modify fresh (fun reached entries =>
    if (path.isEmpty || reached = fresh)
        && (entries.lookup key).isNone then
      some (entries ++ [(key, value)])
    else none) path origin entries

------------------------------------------------------------
-- Headers
------------------------------------------------------------

/- Begin a table, which may already hold tables of its own. -/
def openTable
    (key : String)
    (entries : Entries) : Option Entries :=
  match entries.lookup key with
  | none => some (entries ++ [(key, .table .header [])])
  | some (.table .passed inner) =>
      some (entries.filter (·.1 != key)
        ++ [(key, .table .header inner)])
  | some _ => none

/- Begin the next table of an array. -/
def openArray
    (key : String)
    (entries : Entries) : Option Entries :=
  match entries.lookup key with
  | none => some (entries ++ [(key, .tables [[]])])
  | some (.tables items) =>
      some (replace entries key (.tables (items ++ [[]])))
  | some _ => none

end Toml

end TypedFlux
