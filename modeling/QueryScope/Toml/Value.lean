/-!
# Settings documents

A settings document is a table of texts, other scalars, lists and tables. A table is written once:
where it was begun by a header, by a key with dots or between braces decides how it may be added to
later.
-/

namespace QueryScope.Toml

/-- How a table came about. -/
inductive Origin where
  /-- by a header of its own -/
  | header
  /-- by a header of a table inside of it -/
  | passed
  /-- by a key with dots -/
  | dotted
  /-- between braces -/
  | inline
deriving DecidableEq

/-- A value of a settings document. A list of tables may be written by headers. -/
inductive Value where
  | text (text : String)
  /-- a number, a date or a truth value -/
  | scalar
  | list (byHeaders : Bool) (items : List Value)
  | table (origin : Origin) (entries : List (String × Value))

/-- The entries of a table, in the order in which they were written. -/
abbrev Table := List (String × Value)

namespace Table

/-- Puts a value in the place of an older one, or behind all entries. -/
def set (key : String) (value : Value) : Table → Table
  | [] => [(key, value)]
  | (k, v) :: rest => if k = key then (key, value) :: rest else (k, v) :: set key value rest

/-- Changes the table at a path of keys. Tables on the way are begun if there are none; keys with
dots do not go through tables that have a header, and no path goes through braces. Of a list of tables
that headers write, the last one is meant. -/
def changeAt (dots : Bool) (change : Origin → Table → Option (Origin × Table)) :
    List String → Origin → Table → Option (Origin × Table)
  | [], origin, table => change origin table
  | key :: path, origin, table => do
    let value ← match table.lookup key with
      | none =>
        let (o, t) ← changeAt dots change path (if dots then .dotted else .passed) []
        some (Value.table o t)
      | some (.table .inline _) => none
      | some (.table .header inner) =>
        if dots then none
        else
          let (o, t) ← changeAt dots change path .header inner
          some (Value.table o t)
      | some (.table o inner) =>
        let (o, t) ← changeAt dots change path o inner
        some (Value.table o t)
      | some (.list true items) =>
        match items.getLast? with
        | some (.table o inner) =>
          let (o, t) ← changeAt dots change path o inner
          some (.list true (items.dropLast ++ [.table o t]))
        | _ => none
      | some _ => none
    return (origin, set key value table)

/-- Adds an entry with a key of one or more parts below the table at a path. -/
def addEntry (place keys : List String) (value : Value) (origin : Origin) (table : Table) :
    Option (Origin × Table) :=
  let addLast (last : String) (origin : Origin) (table : Table) : Option (Origin × Table) :=
    if decide (origin = .dotted) = decide (keys.length ≤ 1) || (table.lookup last).isSome then none
    else some (origin, set last value table)
  match keys.getLast? with
  | none => none
  | some last => changeAt false (changeAt true (addLast last) keys.dropLast) place origin table

/-- Begins the table with a header. -/
def addHeader (keys : List String) (origin : Origin) (table : Table) : Option (Origin × Table) :=
  let addLast (last : String) (origin : Origin) (table : Table) : Option (Origin × Table) :=
    match table.lookup last with
    | none => some (origin, set last (.table .header []) table)
    | some (.table .passed inner) => some (origin, set last (.table .header inner) table)
    | some _ => none
  match keys.getLast? with
  | none => none
  | some last => changeAt false (addLast last) keys.dropLast origin table

/-- Begins one more table of a list with a header. -/
def addListHeader (keys : List String) (origin : Origin) (table : Table) :
    Option (Origin × Table) :=
  let addLast (last : String) (origin : Origin) (table : Table) : Option (Origin × Table) :=
    match table.lookup last with
    | none => some (origin, set last (.list true [.table .header []]) table)
    | some (.list true items) =>
      some (origin, set last (.list true (items ++ [.table .header []])) table)
    | some _ => none
  match keys.getLast? with
  | none => none
  | some last => changeAt false (addLast last) keys.dropLast origin table

end Table

end QueryScope.Toml
