/-
Foreign keys: the statements that create and drop them. SQLite has them only
inside its tables.
-/
import SqlCompose.Ddl.Column
import SqlCompose.Ddl.Naming

namespace SqlCompose.Target

open Ddl

def addForeignKey (t : Target) (table : Table) (field : Field) : Except Error String := do
  let name ← t.foreignKeyName table field
  let r ← reference table field
  return t.alterTable table.name ("ADD CONSTRAINT " ++ t.quoteIdentifier name ++
    " FOREIGN KEY (" ++ t.quoteIdentifier field.name ++ ") REFERENCES " ++
    t.quoteIdentifier r.table ++ " (" ++ t.quoteIdentifier r.column ++ ")")

def createForeignKey (t : Target) (table : Table) (field : Field) : Except Error String :=
  match t.dialect with
  | .sqlite => t.dialect.lacks .addConstraint
  | _ => t.addForeignKey table field

/-- PostgreSQL's block that runs a statement unless the constraint is there. -/
def postgresGuard (constraint statement : String) : String :=
  "DO $$ BEGIN IF NOT EXISTS (SELECT 1 FROM pg_constraint WHERE conname = " ++
    quoteLiteral constraint ++ ") THEN " ++ statement ++ "; END IF; END $$"

def createForeignKeyIfNotExists (t : Target) (table : Table) (field : Field) :
    Except Error String :=
  match t.dialect with
  | .generic => t.dialect.lacks .idempotentForeignKey
  | .sqlite => t.dialect.lacks .addConstraint
  | .mySql => do
    let name ← t.foreignKeyName table field
    return mySqlGuard (t.dialect.foreignKeyProbe table.name name) (← t.addForeignKey table field)
      false
  | .postgres => do
    let name ← t.foreignKeyName table field
    return postgresGuard name (← t.addForeignKey table field)
  | .sqlServer => do
    let name ← t.foreignKeyName table field
    return "IF OBJECT_ID(" ++ wideLiteral name ++ ", N'F') IS NULL " ++
      (← t.addForeignKey table field)
  | .oracle => do return oracleGuard .createForeignKey (← t.addForeignKey table field)

def dropForeignKeyStatement (t : Target) (table name : String) : String :=
  match t.dialect with
  | .mySql => t.alterTable table ("DROP FOREIGN KEY " ++ t.quoteIdentifier name)
  | _ => t.alterTable table ("DROP CONSTRAINT " ++ t.quoteIdentifier name)

def dropForeignKey (t : Target) (table name : String) : Except Error String :=
  match t.dialect with
  | .sqlite => t.dialect.lacks .dropConstraint
  | _ => .ok (t.dropForeignKeyStatement table name)

def dropForeignKeyIfExists (t : Target) (table name : String) : Except Error String :=
  match t.dialect with
  | .generic | .postgres =>
    .ok (t.alterTable table ("DROP CONSTRAINT IF EXISTS " ++ t.quoteIdentifier name))
  | .mySql =>
    .ok (mySqlGuard (t.dialect.foreignKeyProbe table name) (t.dropForeignKeyStatement table name)
      true)
  | .sqlServer =>
    .ok ("IF OBJECT_ID(" ++ wideLiteral name ++ ", N'F') IS NOT NULL " ++
      t.dropForeignKeyStatement table name)
  | .oracle => .ok (oracleGuard .dropForeignKey (t.dropForeignKeyStatement table name))
  | .sqlite => t.dialect.lacks .dropConstraint

end SqlCompose.Target
