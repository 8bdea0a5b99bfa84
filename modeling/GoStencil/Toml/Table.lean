/-!
# TOML tables

The values of a TOML document and how its statements build the root table.

* A table that a header names may be named only once, and a table that dotted keys make may be
  extended by dotted keys of the same section only. A value, inline tables included, is never
  extended.
* `Table.insert`: a key and its value; `Table.openTable`, `Table.openElement`: headers.
-/

namespace GoStencil.Toml

/-- How a table came into being. -/
inductive Origin where
  /-- A header names it. -/
  | header
  /-- The header of a table inside it implies it. -/
  | implied
  /-- Dotted keys make it. -/
  | dotted
  deriving DecidableEq, Repr

/-- A value. Numbers, dates and times are told from other values, but not from each other. -/
inductive Value where
  | string (text : String)
  | boolean (value : Bool)
  | number
  | dateTime
  | array (items : List Value)
  /-- A table in braces. -/
  | inline (entries : List (String × Value))
  /-- A table made by headers or dotted keys. -/
  | table (origin : Origin) (entries : List (String × Value))
  /-- The tables of headers in double brackets, the last one first. -/
  | tables (elements : List (List (String × Value)))

/-- Keys with their values, in the order of insertion. -/
abbrev Table := List (String × Value)

namespace Table

/-- The table with the value of a key replaced by what the function makes of it. -/
def alter (key : String) (change : Option Value → Option Value) : Table → Option Table
  | [] => (change none).map fun value => [(key, value)]
  | (other, value) :: rest =>
    if other = key then (change (some value)).map fun value => (other, value) :: rest
    else (alter key change rest).map fun rest => (other, value) :: rest

/-- Adds a key that is not in the table yet. -/
def add (key : String) (value : Value) (table : Table) : Option Table :=
  table.alter key fun
    | none => some value
    | some _ => none

/-- Changes the table to which a path of header keys leads, where tables that are missing are
    implied. -/
def descend : List String → (Table → Option Table) → Table → Option Table
  | [], change, table => change table
  | key :: path, change, table =>
    table.alter key fun
      | none => (descend path change []).map (Value.table .implied)
      | some (.table origin entries) => (descend path change entries).map (Value.table origin)
      | some (.tables (last :: others)) =>
        (descend path change last).map fun last => .tables (last :: others)
      | some _ => none

/-- Changes the table to which a path of dotted keys leads, where tables that are missing are made
    and no other tables may stand. -/
def descendDotted : List String → (Table → Option Table) → Table → Option Table
  | [], change, table => change table
  | key :: path, change, table =>
    table.alter key fun
      | none => (descendDotted path change []).map (Value.table .dotted)
      | some (.table .dotted entries) =>
        (descendDotted path change entries).map (Value.table .dotted)
      | some _ => none

/-- Inserts a value under a dotted key, given by its first parts and its last, into the table of
    the section to which the header keys lead. -/
def insert (section_ parts : List String) (key : String) (value : Value) (root : Table) :
    Option Table :=
  root.descend section_ (descendDotted parts (add key value))

/-- Opens the table that a header names, given by its first keys and its last. -/
def openTable (path : List String) (key : String) (root : Table) : Option Table :=
  root.descend path fun table =>
    table.alter key fun
      | none => some (.table .header [])
      | some (.table .implied entries) => some (.table .header entries)
      | some _ => none

/-- Opens a new element of the tables that a header in double brackets names. -/
def openElement (path : List String) (key : String) (root : Table) : Option Table :=
  root.descend path fun table =>
    table.alter key fun
      | none => some (.tables [[]])
      | some (.tables elements) => some (.tables ([] :: elements))
      | some _ => none

end Table

end GoStencil.Toml
