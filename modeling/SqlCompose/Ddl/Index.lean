/-
Indexes: the statements that create and drop them.
-/
import SqlCompose.Ddl.Naming
import SqlCompose.Ddl.Probe
import SqlCompose.Dialect.Names

namespace SqlCompose.Target

open Ddl

/-- The statement for an index, with a condition between INDEX and its name. -/
def indexStatement (t : Target) (table : Table) (index : Index) (condition : String) : String :=
  "CREATE " ++ (if index.unique then "UNIQUE " else "") ++ "INDEX " ++ condition ++
    t.quoteIdentifier (t.indexName table index) ++ " ON " ++ t.quoteIdentifier table.name ++ " (" ++
    commaList (index.columns.map t.quoteIdentifier) ++ ")"

def createIndex (t : Target) (table : Table) (index : Index) : String :=
  t.indexStatement table index ""

def indexCondition (quantifier table index : String) : String :=
  "IF " ++ quantifier ++ " (SELECT * FROM sys.indexes WHERE name = " ++ wideLiteral index ++
    " AND object_id = OBJECT_ID(" ++ wideLiteral table ++ ")) "

def createIndexIfNotExists (t : Target) (table : Table) (index : Index) : String :=
  match t.dialect with
  | .generic | .postgres | .sqlite => t.indexStatement table index "IF NOT EXISTS "
  | .mySql =>
    mySqlGuard (t.dialect.indexProbe table.name (t.indexName table index))
      (t.createIndex table index) false
  | .sqlServer =>
    indexCondition "NOT EXISTS" table.name (t.indexName table index) ++ t.createIndex table index
  | .oracle => oracleGuard .createIndex (t.createIndex table index)

/-- On MySQL and SQL Server an index belongs to its table. -/
def dropIndex (t : Target) (table index : String) : String :=
  match t.dialect with
  | .mySql | .sqlServer =>
    "DROP INDEX " ++ t.quoteIdentifier index ++ " ON " ++ t.quoteIdentifier table
  | _ => "DROP INDEX " ++ t.quoteIdentifier index

def dropIndexIfExists (t : Target) (table index : String) : String :=
  match t.dialect with
  | .generic | .postgres | .sqlite => "DROP INDEX IF EXISTS " ++ t.quoteIdentifier index
  | .mySql => mySqlGuard (t.dialect.indexProbe table index) (t.dropIndex table index) true
  | .sqlServer => indexCondition "EXISTS" table index ++ t.dropIndex table index
  | .oracle => oracleGuard .dropIndex (t.dropIndex table index)

end SqlCompose.Target
