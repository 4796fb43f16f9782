/-!
# TOML values and tables

A TOML text is a list of sections, each with a header and lines of the form `key = value`. A table
remembers how it came to be, since that decides what may still be added to it: a header may open a table
once, and a dotted key may extend only tables that dotted keys have made, or that headers have passed
through. `Toml.Entries.put` adds a line and `Toml.Entries.addSection` a section; both fail when a key is
taken.
-/

namespace EcuPoll

namespace Toml

/-- How a table came to be. -/
inductive Origin
  /-- By a header of its own. -/
  | header
  /-- By the header of a table within it. -/
  | implied
  /-- By a dotted key. -/
  | dotted
deriving DecidableEq, Repr

end Toml

/-- A value in a TOML text. -/
inductive Toml
  | string (text : String)
  | integer (value : Int)
  | boolean (value : Bool)
  /-- A floating point number, of which nothing is kept. -/
  | float
  /-- A date or a time, of which nothing is kept. -/
  | datetime
  | array (items : List Toml)
  /-- A table in braces, to which nothing can be added. -/
  | inline (entries : List (String × Toml))
  | table (origin : Toml.Origin) (entries : List (String × Toml))
  /-- The tables under a header in double brackets. The last of them is still open. -/
  | tables (items : List (List (String × Toml)))
deriving Repr

namespace Toml

/-- The keys of a table with their values. -/
abbrev Entries := List (String × Toml)

/-- A key with dots in it: what is before the last dot, and the last part. -/
structure Key where
  path : List String
  name : String
deriving DecidableEq, Repr

/-- A line `key = value`. -/
structure Pair where
  key : Key
  value : Toml
deriving Repr

inductive Header
  /-- The start of the text, which needs no header. -/
  | root
  /-- A key in brackets: the table of that name. -/
  | single (key : Key)
  /-- A key in double brackets: one more table of that name. -/
  | again (key : Key)
deriving DecidableEq, Repr

structure Section where
  header : Header
  pairs : List Pair
deriving Repr

namespace Entries

/-- Changes the value of a key, which may fail. A key that is not there is added. -/
def alter (key : String) (change : Option Toml → Option Toml) : Entries → Option Entries
  | [] => (change none).map fun value => [(key, value)]
  | (k, old) :: rest =>
    if k = key then (change (some old)).map fun value => (k, value) :: rest
    else (alter key change rest).map ((k, old) :: ·)

/-- Adds a key, which must be new. -/
def insertNew (key : String) (value : Toml) : Entries → Option Entries :=
  alter key fun old => if old.isSome then none else some value

/-- Changes the last of a list of tables. -/
def alterLast (change : Entries → Option Entries) : List Entries → Option (List Entries)
  | [] => none
  | [entries] => (change entries).map ([·])
  | entries :: rest => (alterLast change rest).map (entries :: ·)

/-- Puts a value under `name` at the end of a path. A table which is not `ours`, neither the one that the
line stands in nor made by a dotted key, takes no new key itself. -/
def putAt (value : Toml) (name : String) (ours : Bool) : List String → Entries → Option Entries
  | [], entries => if ours then insertNew name value entries else none
  | key :: path, entries =>
    alter key
      (fun
        | none => (putAt value name true path []).map (.table .dotted)
        | some (.table .header _) => none
        | some (.table origin inner) =>
          (putAt value name (origin = .dotted) path inner).map (.table origin)
        | some (.tables items) => (alterLast (putAt value name false path) items).map .tables
        | some _ => none)
      entries

/-- Adds a line to the table that it stands in. -/
def put (entries : Entries) (pair : Pair) : Option Entries :=
  putAt pair.value pair.key.name true pair.key.path entries

def putAll (pairs : List Pair) (entries : Entries) : Option Entries :=
  pairs.foldlM put entries

/-- Changes the table at the end of the path of a header. Tables on the way that are not there are
implied; of several tables the last one is meant. -/
def alterAt (change : Entries → Option Entries) : List String → Entries → Option Entries
  | [], entries => change entries
  | key :: path, entries =>
    alter key
      (fun
        | none => (alterAt change path []).map (.table .implied)
        | some (.table origin inner) => (alterAt change path inner).map (.table origin)
        | some (.tables items) => (alterLast (alterAt change path) items).map .tables
        | some _ => none)
      entries

/-- What the name of a header stands for after its lines. A table in brackets may only have been implied
so far. -/
def openTable (pairs : List Pair) : Option Toml → Option Toml
  | none => (putAll pairs []).map (.table .header)
  | some (.table .implied inner) => (putAll pairs inner).map (.table .header)
  | some _ => none

/-- What the name of a header in double brackets stands for after its lines. -/
def addTable (pairs : List Pair) : Option Toml → Option Toml
  | none => (putAll pairs []).map fun entries => .tables [entries]
  | some (.tables items) => (putAll pairs []).map fun entries => .tables (items ++ [entries])
  | some _ => none

def addSection (entries : Entries) (s : Section) : Option Entries :=
  match s.header with
  | .root => putAll s.pairs entries
  | .single key => alterAt (alter key.name (openTable s.pairs)) key.path entries
  | .again key => alterAt (alter key.name (addTable s.pairs)) key.path entries

end Entries

/-- The table of a whole text. -/
def ofSections? (sections : List Section) : Option Entries :=
  sections.foldlM Entries.addSection []

/-- A table in braces. -/
def ofPairs? (pairs : List Pair) : Option Toml :=
  (Entries.putAll pairs []).map .inline

end Toml

end EcuPoll
