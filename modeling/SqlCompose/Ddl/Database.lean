/-
Databases: the statements that create and drop them. For SQLite the file is the
database, and Oracle has users in their place.
-/
import SqlCompose.Ddl.Probe
import SqlCompose.Dialect.Names

namespace SqlCompose.Target

open Ddl Dialect

def createDatabase (t : Target) (name : String) : Except Error String :=
  match t.dialect with
  | .oracle => t.dialect.lacks .createDatabase
  | .sqlite => .ok nothingToDo
  | _ => .ok ("CREATE DATABASE " ++ t.quoteIdentifier name)

def createDatabaseIfNotExists (t : Target) (name : String) : Except Error String :=
  match t.dialect with
  | .generic | .mySql => .ok ("CREATE DATABASE IF NOT EXISTS " ++ t.quoteIdentifier name)
  | .postgres => t.dialect.lacks .createDatabaseIfNotExists
  | .sqlServer =>
    .ok ("IF DB_ID(" ++ wideLiteral name ++ ") IS NULL CREATE DATABASE " ++ t.quoteIdentifier name)
  | .oracle => t.dialect.lacks .createDatabase
  | .sqlite => .ok nothingToDo

def dropDatabase (t : Target) (name : String) : Except Error String :=
  match t.dialect with
  | .oracle | .sqlite => t.dialect.lacks .dropDatabase
  | _ => .ok ("DROP DATABASE " ++ t.quoteIdentifier name)

def dropDatabaseIfExists (t : Target) (name : String) : Except Error String :=
  match t.dialect with
  | .oracle | .sqlite => t.dialect.lacks .dropDatabase
  | .sqlServer =>
    .ok ("IF DB_ID(" ++ wideLiteral name ++ ") IS NOT NULL DROP DATABASE " ++
      t.quoteIdentifier name)
  | .generic | .mySql | .postgres => .ok ("DROP DATABASE IF EXISTS " ++ t.quoteIdentifier name)

end SqlCompose.Target
