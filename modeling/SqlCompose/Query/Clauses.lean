/-
The clauses of a SELECT while it is put together, and the statement they make.

Conditions are combined from left to right: the second term is put beside the
first, and from the third on what is there goes into parentheses first. The row
window is kept apart and joined to the finished condition, so a term added later
does not escape it.
-/
import SqlCompose.Text.Blank
import SqlCompose.Text.Join

namespace SqlCompose

/-- What stands between SELECT and the columns, or instead of them. -/
structure SelectFormat where
  distinct : Bool := false
  /-- The number of rows, where the engine limits them here. -/
  top : Option UInt64 := none
  /-- Counts the rows instead of listing columns. -/
  count : Bool := false
  deriving DecidableEq, Repr

def SelectFormat.apply (f : SelectFormat) (columns : String) : String :=
  (if f.distinct then "DISTINCT " else "") ++
    (match f.top with
      | some n => "TOP " ++ n.toNat.repr ++ " "
      | none => "") ++
    (if f.count then "COUNT(*)" else columns)

inductive Connective where
  | and
  | or
  deriving DecidableEq, Repr

def Connective.keyword : Connective → String
  | and => "AND"
  | or => "OR"

structure Condition where
  text : String := ""
  terms : Nat := 0
  deriving DecidableEq, Repr

def Condition.combine (c : Condition) (connective : Connective) (term : String) : Condition where
  text :=
    match c.terms with
    | 0 => term
    | 1 => c.text ++ " " ++ connective.keyword ++ " " ++ term
    | _ => "(" ++ c.text ++ ") " ++ connective.keyword ++ " " ++ term
  terms := c.terms + 1

def appendEntry (buffer entry : String) : String :=
  if buffer.isEmpty then entry else buffer ++ ", " ++ entry

structure Clauses where
  table : String
  source : String
  columns : String := ""
  filter : Condition := {}
  rowWindow : String := ""
  groupBy : String := ""
  having : Condition := {}
  orderBy : String := ""
  format : SelectFormat := {}
  ending : String := ""
  deriving DecidableEq, Repr

namespace Clauses

def addFilter (connective : Connective) (term : String) (c : Clauses) : Clauses :=
  { c with filter := c.filter.combine connective term }

def addHaving (term : String) (c : Clauses) : Clauses :=
  { c with having := c.having.combine .and term }

def addColumn (entry : String) (c : Clauses) : Clauses :=
  { c with columns := appendEntry c.columns entry }

def addGroupBy (entry : String) (c : Clauses) : Clauses :=
  { c with groupBy := appendEntry c.groupBy entry }

def addOrderBy (entry : String) (c : Clauses) : Clauses :=
  { c with orderBy := appendEntry c.orderBy entry }

def addJoin (keyword target condition : String) (c : Clauses) : Clauses :=
  { c with source := c.source ++ " " ++ keyword ++ " " ++ target ++ " ON " ++ condition }

/-- The condition and the row window as one. -/
def whereBody (c : Clauses) : String :=
  if isBlank c.rowWindow then c.filter.text
  else if isBlank c.filter.text then c.rowWindow
  else if 1 < c.filter.terms then "(" ++ c.filter.text ++ ") AND " ++ c.rowWindow
  else c.filter.text ++ " AND " ++ c.rowWindow

/-- A clause with its keyword, or nothing when it is blank. -/
def clause (keyword body : String) : String :=
  if isBlank body then "" else " " ++ keyword ++ " " ++ body

/-- What to sort by: the given order, or the default one where an ending needs it. -/
def sortBody (c : Clauses) (defaultOrder : Option String) : Option String :=
  if !isBlank c.orderBy then some c.orderBy
  else if isBlank c.ending then none
  else defaultOrder

/-- The statement. Blank clauses are left out. -/
def assemble (c : Clauses) (defaultOrder : Option String) : String :=
  "SELECT " ++ c.format.apply c.columns ++ " FROM " ++ c.source ++
    clause "WHERE" c.whereBody ++ clause "GROUP BY" c.groupBy ++ clause "HAVING" c.having.text ++
    (match c.sortBody defaultOrder with
      | some order => " ORDER BY " ++ order
      | none => "") ++
    (if isBlank c.ending then "" else " " ++ c.ending)

end Clauses

end SqlCompose
