/-
Statements about one row: insert it, and select, update or delete the row with a
given key. Columns that the engine numbers are not written; key columns are not
assigned. A row is read entry by entry: each binds its value in the one table of
parameters and is written under the name it gets there.
-/
import SqlCompose.Dialect.Names
import SqlCompose.Dialect.Operators
import SqlCompose.Error
import SqlCompose.Parameters
import SqlCompose.Schema.Table

namespace SqlCompose

structure Statement where
  sql : String
  params : Parameters

/-- An insert that also answers the number the engine gave to `column`, where it can. -/
def Target.returningIdentity? (t : Target) (insert column : String) : Option String :=
  match t.dialect with
  | .generic => none
  | .mySql => some (insert ++ "; SELECT LAST_INSERT_ID()")
  | .postgres => some (insert ++ " RETURNING " ++ t.quoteIdentifier column)
  | .sqlServer => some (insert ++ "; SELECT SCOPE_IDENTITY()")
  | .oracle => some (insert ++ " RETURNING " ++ t.quoteIdentifier column ++ " INTO :id")
  | .sqlite => some (insert ++ "; SELECT last_insert_rowid()")

namespace RowStatement

def requireField (table : Table) (name : String) : Except Error Field :=
  match table.field? name with
  | some f => .ok f
  | none => .error (.invalidSchema (.noColumn table.name name))

def keyField (table : Table) : Except Error Field :=
  match table.idField? with
  | some f => .ok f
  | none => .error (.noSingleKey table.name)

/-- The test of the key column against `id`, and the parameters with `id` bound. -/
def idPredicate (t : Target) (table : Table) (params : Parameters) (id : Value) :
    Except Error (String × Parameters) := do
  let key ← keyField table
  return (t.dialect.binary .eq (t.columnRef table.name key.name) params.nextKey, params.push id)

/-- An insert under construction: the columns and the names of their values, side by side. -/
structure Insertion where
  params : Parameters
  columns : List String := []
  values : List String := []

/-- Takes one entry of a row into an insert. -/
def insertEntry (t : Target) (table : Table) (s : Insertion) (entry : String × Value) :
    Except Error Insertion := do
  let f ← requireField table entry.1
  if f.isIdentity then return s
  return {
    params := s.params.push entry.2
    columns := s.columns ++ [t.quoteIdentifier f.name]
    values := s.values ++ [s.params.nextKey] }

def insertText (t : Target) (table : Table) (s : Insertion) : String :=
  "INSERT INTO " ++ t.quoteIdentifier table.name ++
    (if s.columns.isEmpty then " DEFAULT VALUES"
    else " (" ++ commaList s.columns ++ ") VALUES (" ++ commaList s.values ++ ")")

/-- Inserts a row and answers the number the engine gave it. -/
def insert (t : Target) (table : Table) (row : List (String × Value)) : Except Error Statement := do
  let s ← row.foldlM (insertEntry t table) { params := { tag := t.dialect.parameterTag } }
  let text := insertText t table s
  let sql :=
    match table.identityField? with
    | some f => (t.returningIdentity? text f.name).getD text
    | none => text
  return ⟨sql, s.params⟩

structure Revision where
  params : Parameters
  assignments : List String := []

def updateEntry (t : Target) (table : Table) (s : Revision) (entry : String × Value) :
    Except Error Revision := do
  let f ← requireField table entry.1
  if f.primaryKey || f.isIdentity then return s
  return {
    params := s.params.push entry.2
    assignments := s.assignments ++ [t.quoteIdentifier f.name ++ " = " ++ s.params.nextKey] }

/-- Assigns columns of the row with key `id`. -/
def update (t : Target) (table : Table) (id : Value) (row : List (String × Value)) :
    Except Error Statement := do
  -- A table without such a key is refused before its row is looked at.
  let _ ← keyField table
  let s ← row.foldlM (updateEntry t table) { params := { tag := t.dialect.parameterTag } }
  if s.assignments.isEmpty then throw (.invalidSchema (.assignsNothing table.name))
  let (predicate, params) ← idPredicate t table s.params id
  return ⟨"UPDATE " ++ t.quoteIdentifier table.name ++ " SET " ++ commaList s.assignments ++
    " WHERE " ++ predicate, params⟩

def delete (t : Target) (table : Table) (id : Value) : Except Error Statement := do
  let (predicate, params) ← idPredicate t table { tag := t.dialect.parameterTag } id
  return ⟨"DELETE FROM " ++ t.quoteIdentifier table.name ++ " WHERE " ++ predicate, params⟩

def select (t : Target) (table : Table) (id : Value) : Except Error Statement := do
  let (predicate, params) ← idPredicate t table { tag := t.dialect.parameterTag } id
  let columns := table.fields.map fun f => t.columnRef table.name f.name
  return ⟨"SELECT " ++ commaList columns ++ " FROM " ++ t.selectableTable table.name ++ " WHERE " ++
    predicate, params⟩

end RowStatement

end SqlCompose
