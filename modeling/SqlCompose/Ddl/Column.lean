/-
Columns: their definitions, and the statements that add and drop them.
-/
import SqlCompose.Ddl.Probe
import SqlCompose.Dialect.Names
import SqlCompose.Dialect.Types
import SqlCompose.Schema.Table

namespace SqlCompose

/-- What makes a column number its rows, where that is part of its definition. -/
def Dialect.identityClause? (d : Dialect) (i : Identity) : Option String :=
  match d with
  | mySql => some "AUTO_INCREMENT"
  | sqlServer => some ("IDENTITY(" ++ int64Text i.start ++ "," ++ int64Text i.increment ++ ")")
  | oracle => none
  | generic | postgres | sqlite =>
    some ("GENERATED BY DEFAULT AS IDENTITY (START WITH " ++ int64Text i.start ++
      " INCREMENT BY " ++ int64Text i.increment ++ ")")

namespace Target

open Ddl

def columnHead (t : Target) (f : Field) : String :=
  t.quoteIdentifier f.name ++ " " ++
    t.dialect.typeName { ty := f.ty, size := f.size, precision := f.precision }

def nullability (f : Field) : String := if f.nullable then " NULL" else " NOT NULL"

/-- Whether the field is the whole key of its table. -/
def isSoleKey (table : Table) (f : Field) : Bool := f.primaryKey && table.hasSoleKey

/-- The definition of a column inside a table. SQLite numbers rows only as part of the key and
keeps foreign keys here. -/
def columnDefinition (t : Target) (table : Table) (f : Field) : String :=
  match t.dialect with
  | .sqlite =>
    t.columnHead f ++ nullability f ++
      (if isSoleKey table f then
        " PRIMARY KEY" ++ (if f.isIdentity then " AUTOINCREMENT" else "")
      else "") ++
      (match f.reference with
        | some r =>
          " REFERENCES " ++ t.quoteIdentifier r.table ++ " (" ++ t.quoteIdentifier r.column ++ ")"
        | none => "")
  | d =>
    t.columnHead f ++
      (match f.identity.bind d.identityClause? with
        | some clause => " " ++ clause
        | none => "") ++
      nullability f ++ (if isSoleKey table f then " PRIMARY KEY" else "")

def alterTable (t : Target) (table action : String) : String :=
  "ALTER TABLE " ++ t.quoteIdentifier table ++ " " ++ action

def createColumn (t : Target) (table : Table) (f : Field) : String :=
  let definition := t.columnDefinition table f
  match t.dialect with
  | .sqlServer | .oracle => t.alterTable table.name ("ADD " ++ definition)
  | _ => t.alterTable table.name ("ADD COLUMN " ++ definition)

def createColumnIfNotExists (t : Target) (table : Table) (f : Field) : Except Error String :=
  match t.dialect with
  | .generic | .postgres =>
    .ok (t.alterTable table.name ("ADD COLUMN IF NOT EXISTS " ++ t.columnDefinition table f))
  | .mySql =>
    .ok (mySqlGuard (t.dialect.columnProbe table.name f.name) (t.createColumn table f) false)
  | .sqlServer =>
    .ok ("IF COL_LENGTH(" ++ wideLiteral table.name ++ ", " ++ wideLiteral f.name ++ ") IS NULL " ++
      t.createColumn table f)
  | .oracle => .ok (oracleGuard .createColumn (t.createColumn table f))
  | .sqlite => t.dialect.lacks .addColumnIfNotExists

def dropColumnStatement (t : Target) (table column : String) : String :=
  t.alterTable table ("DROP COLUMN " ++ t.quoteIdentifier column)

def dropColumn (t : Target) (table column : String) : Except Error String :=
  match t.dialect with
  | .sqlite => t.dialect.lacks .dropColumn
  | _ => .ok (t.dropColumnStatement table column)

def dropColumnIfExists (t : Target) (table column : String) : Except Error String :=
  match t.dialect with
  | .generic | .postgres =>
    .ok (t.alterTable table ("DROP COLUMN IF EXISTS " ++ t.quoteIdentifier column))
  | .mySql =>
    .ok (mySqlGuard (t.dialect.columnProbe table column) (t.dropColumnStatement table column) true)
  | .sqlServer =>
    .ok ("IF COL_LENGTH(" ++ wideLiteral table ++ ", " ++ wideLiteral column ++ ") IS NOT NULL " ++
      t.dropColumnStatement table column)
  | .oracle => .ok (oracleGuard .dropColumn (t.dropColumnStatement table column))
  | .sqlite => t.dialect.lacks .dropColumn

end Target

end SqlCompose
