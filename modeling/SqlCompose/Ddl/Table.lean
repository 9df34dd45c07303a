/-
Tables: the statement that creates one, and the plans: a table with its indexes and
foreign keys, and what goes with it when it is dropped.

Oracle numbers rows with a sequence and a trigger, which are statements of their
own right after the table's.
-/
import SqlCompose.Ddl.ForeignKey
import SqlCompose.Ddl.Index

namespace SqlCompose.Target

open Ddl

def tableOptions (t : Target) (table : Table) : String :=
  match t.dialect, table.identityField?.bind (·.identity) with
  | .mySql, some i => if i.start = 1 then "" else " AUTO_INCREMENT=" ++ int64Text i.start
  | _, _ => ""

def compositeKey (t : Target) (table : Table) : List String :=
  if 1 < table.primaryKeys.length then
    ["PRIMARY KEY (" ++ commaList (table.primaryKeys.map fun f => t.quoteIdentifier f.name) ++ ")"]
  else []

/-- The lines inside the parentheses: the columns, and the key when it has several. -/
def tableLines (t : Target) (table : Table) : List String :=
  table.fields.map (t.columnDefinition table) ++ t.compositeKey table

def tableBody (t : Target) (table : Table) : String :=
  t.quoteIdentifier table.name ++ " (\n    " ++ joinWith ",\n    " (t.tableLines table) ++ "\n)" ++
    t.tableOptions table

/-- Whether SQLite can number the rows: its identity is part of a key of one column. -/
def identityFits (table : Table) : Bool :=
  match table.identityField? with
  | some f => isSoleKey table f
  | none => true

def createTableStatement (t : Target) (table : Table) (ifNotExists : Bool) : Except Error String :=
  let create := "CREATE TABLE " ++ t.tableBody table
  let conditional :=
    "CREATE TABLE " ++ (if ifNotExists then "IF NOT EXISTS " else "") ++ t.tableBody table
  match t.dialect with
  | .generic | .mySql | .postgres => .ok conditional
  | .sqlServer =>
    .ok (if ifNotExists then
      "IF OBJECT_ID(" ++ wideLiteral table.name ++ ", N'U') IS NULL\n" ++ create else create)
  | .oracle => .ok (if ifNotExists then oracleGuard .createTable create else create)
  | .sqlite => if identityFits table then .ok conditional else t.dialect.lacks .identityBesideKey

def inlineForeignKeys (t : Target) : Bool := t.dialect == .sqlite

def sequenceName (table : Table) : String := "SEQ_" ++ table.name

def triggerName (table : Table) : String := "TRG_" ++ table.name

def createSequence (t : Target) (table : Table) (i : Identity) : String :=
  "CREATE SEQUENCE " ++ t.quoteIdentifier (sequenceName table) ++ " START WITH " ++
    int64Text i.start ++ " INCREMENT BY " ++ int64Text i.increment

/-- The trigger that draws a number for each row without one. -/
def createTrigger (t : Target) (table : Table) (f : Field) : String :=
  let column := t.quoteIdentifier f.name
  "CREATE TRIGGER " ++ t.quoteIdentifier (triggerName table) ++ " BEFORE INSERT ON " ++
    t.quoteIdentifier table.name ++ " FOR EACH ROW WHEN (new." ++ column ++
    " IS NULL) BEGIN SELECT " ++ t.quoteIdentifier (sequenceName table) ++
    ".NEXTVAL INTO :new." ++ column ++ " FROM DUAL; END;"

/-- Oracle's statements that number the rows of a table. -/
def identityStatements (t : Target) (table : Table) (f : Field) (i : Identity) (guarded : Bool) :
    List String :=
  let sequence := t.createSequence table i
  let trigger := t.createTrigger table f
  if guarded then
    [oracleGuard .createSequence sequence, oracleGuard .createTrigger trigger]
  else [sequence, trigger]

def planIndex (t : Target) (table : Table) (ifNotExists : Bool) (index : Index) : String :=
  if ifNotExists then t.createIndexIfNotExists table index else t.createIndex table index

def planForeignKey (t : Target) (table : Table) (ifNotExists : Bool) (f : Field) :
    Except Error String :=
  if ifNotExists then t.createForeignKeyIfNotExists table f else t.createForeignKey table f

def planObjects (t : Target) (table : Table) (ifNotExists : Bool) : Except Error (List String) := do
  let statement ← t.createTableStatement table ifNotExists
  let foreignKeys ←
    if t.inlineForeignKeys then pure [] else table.references.mapM (t.planForeignKey table ifNotExists)
  return statement :: table.indexes.map (t.planIndex table ifNotExists) ++ foreignKeys

/-- The plan for a table. On Oracle, what numbers its rows goes in after the first statement. -/
def planTable (t : Target) (table : Table) (ifNotExists : Bool) : Except Error (List String) := do
  let statements ← t.planObjects table ifNotExists
  match t.dialect, table.identityField? with
  | .oracle, some f =>
    let extra := t.identityStatements table f (f.identity.getD {}) ifNotExists
    return statements.take 1 ++ extra ++ statements.drop 1
  | _, _ => return statements

def createTable (t : Target) (table : Table) : Except Error (List String) := t.planTable table false

def createTableIfNotExists (t : Target) (table : Table) : Except Error (List String) :=
  t.planTable table true

/-- On Oracle the sequence goes with the table; a trigger goes by itself. -/
def dropTable (t : Target) (table : Table) : List String :=
  let drop := "DROP TABLE " ++ t.quoteIdentifier table.name
  match t.dialect with
  | .oracle =>
    if table.identityField?.isSome then
      [drop, "DROP SEQUENCE " ++ t.quoteIdentifier (sequenceName table)]
    else [drop]
  | _ => [drop]

def dropTableIfExists (t : Target) (table : Table) : List String :=
  match t.dialect with
  | .oracle =>
    ((t.dropTable table).zip [.dropTable, .dropSequence]).map fun (statement, op) =>
      oracleGuard op statement
  | .sqlServer =>
    ["IF OBJECT_ID(" ++ wideLiteral table.name ++ ", N'U') IS NOT NULL DROP TABLE " ++
      t.quoteIdentifier table.name]
  | _ => ["DROP TABLE IF EXISTS " ++ t.quoteIdentifier table.name]

end SqlCompose.Target
