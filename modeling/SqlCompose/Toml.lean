/-
TOML documents as trees, and how key-value pairs and headers build them.

A table remembers how it came about, since that decides what may still be added
to it: a table with a header of its own is not made again, neither by a second
header nor by dotted keys; a table that dotted keys made takes no header; an
inline table takes nothing any more.
-/

namespace SqlCompose

/-- How a table came about. -/
inductive TableOrigin where
  /-- By a header of its own. -/
  | header
  /-- By a longer header that passes through it. -/
  | implied
  /-- By a dotted key that passes through it. -/
  | dotted
  /-- As a value in braces. -/
  | inline
  deriving DecidableEq, Repr

inductive Toml where
  | string (s : String)
  | integer (n : Int64)
  | bool (b : Bool)
  /-- A float, as written. -/
  | float (text : String)
  /-- A date, a time of day or both, as written. -/
  | time (text : String)
  | array (items : List Toml)
  | table (origin : TableOrigin) (entries : List (String × Toml))
  /-- An array of tables with headers, in order. -/
  | tables (elements : List (List (String × Toml)))

namespace Toml

abbrev Entries := List (String × Toml)

def replace (entries : Entries) (name : String) (v : Toml) : Entries :=
  entries.map fun e => if e.1 = name then (name, v) else e

/-- Whether a path may pass through a table: a dotted key only through tables that no header
defined, a header through all but inline ones. -/
def lets (origin : TableOrigin) (byDottedKey : Bool) : Bool :=
  match origin with
  | .header => !byDottedKey
  | .implied | .dotted => true
  | .inline => false

/-- Changes the table at the end of a path, making the tables on the way. A path through an array of
tables goes through the last of them. -/
def changeAt (byDottedKey : Bool) (change : TableOrigin → Entries → Option Entries) :
    List String → TableOrigin → Entries → Option Entries
  | [], origin, entries => change origin entries
  | name :: path, _, entries =>
    match entries.lookup name with
    | none =>
      let origin := if byDottedKey then .dotted else .implied
      (changeAt byDottedKey change path origin []).map fun inner =>
        entries ++ [(name, table origin inner)]
    | some (table origin inner) =>
      if lets origin byDottedKey then
        (changeAt byDottedKey change path origin inner).map fun inner =>
          replace entries name (table origin inner)
      else none
    | some (tables elements) =>
      match elements.getLast? with
      | none => none
      | some last =>
        (changeAt byDottedKey change path .header last).map fun last =>
          replace entries name (tables (elements.dropLast ++ [last]))
    | some _ => none

/-- Puts a value under a dotted key into a table; the last table on the way has to be one that
dotted keys made, and the name has to be free. -/
def insertKey (path : List String) (name : String) (v : Toml) (origin : TableOrigin)
    (entries : Entries) : Option Entries :=
  changeAt true
    (fun origin entries =>
      if (origin == .dotted) == path.isEmpty then none
      else if (entries.lookup name).isSome then none
      else some (entries ++ [(name, v)]))
    path origin entries

/-- Opens a table by its header: a new one, or one that longer headers implied. -/
def openTable (path : List String) (name : String) (root : Entries) : Option Entries :=
  changeAt false
    (fun _ entries =>
      match entries.lookup name with
      | none => some (entries ++ [(name, table .header [])])
      | some (table .implied inner) => some (replace entries name (table .header inner))
      | some _ => none)
    path .header root

/-- Opens one more element of an array of tables. -/
def openElement (path : List String) (name : String) (root : Entries) : Option Entries :=
  changeAt false
    (fun _ entries =>
      match entries.lookup name with
      | none => some (entries ++ [(name, tables [[]])])
      | some (tables elements) => some (replace entries name (tables (elements ++ [[]])))
      | some _ => none)
    path .header root

def insertAt (here path : List String) (name : String) (v : Toml) (root : Entries) :
    Option Entries :=
  changeAt false (insertKey path name v) here .header root

end Toml

end SqlCompose
