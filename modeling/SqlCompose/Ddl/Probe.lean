/-
Probes: queries that answer whether an object of the database is there, with zero
for no. Names go in as literals.
-/
import SqlCompose.Ddl.Operation
import SqlCompose.Error
import SqlCompose.Text.Upper

namespace SqlCompose.Dialect

open Ddl

def lacks (d : Dialect) (feature : Feature) : Except Error α :=
  .error (.unsupportedFeature d feature)

def countRows (catalog condition : String) : String :=
  "SELECT COUNT(*) FROM " ++ catalog ++ " WHERE " ++ condition

def named (column literal : String) : String := column ++ " = " ++ literal

def both (left right : String) : String := left ++ " AND " ++ right

def nothingToDo : String := "SELECT 1"

def databaseExists (d : Dialect) (name : String) : String :=
  match d with
  | generic | mySql =>
    countRows "information_schema.schemata" (named "schema_name" (quoteLiteral name))
  | postgres => countRows "pg_database" (named "datname" (quoteLiteral name))
  | sqlServer => countRows "sys.databases" (named "name" (wideLiteral name))
  | oracle => countRows "all_users" (named "username" (quoteLiteral (upperCase name)))
  | sqlite => nothingToDo

def tableExists (d : Dialect) (table : String) : String :=
  match d with
  | generic | postgres =>
    countRows "information_schema.tables" (named "table_name" (quoteLiteral table))
  | mySql =>
    countRows "information_schema.tables"
      (both "table_schema = DATABASE()" (named "table_name" (quoteLiteral table)))
  | sqlServer =>
    "SELECT CASE WHEN OBJECT_ID(" ++ wideLiteral table ++ ", N'U') IS NULL THEN 0 ELSE 1 END"
  | oracle => countRows "user_tables" (named "table_name" (quoteLiteral table))
  | sqlite => countRows "sqlite_master" (both "type = 'table'" (named "name" (quoteLiteral table)))

def columnProbe (d : Dialect) (table column : String) : String :=
  match d with
  | sqlServer =>
    countRows "sys.columns"
      (both (named "object_id" ("OBJECT_ID(" ++ wideLiteral table ++ ")"))
        (named "name" (wideLiteral column)))
  | oracle =>
    countRows "user_tab_columns"
      (both (named "table_name" (quoteLiteral table)) (named "column_name" (quoteLiteral column)))
  | mySql =>
    countRows "information_schema.columns"
      (both "table_schema = DATABASE()"
        (both (named "table_name" (quoteLiteral table)) (named "column_name" (quoteLiteral column))))
  | generic | postgres | sqlite =>
    countRows "information_schema.columns"
      (both (named "table_name" (quoteLiteral table)) (named "column_name" (quoteLiteral column)))

def columnExists (d : Dialect) (table column : String) : Except Error String :=
  match d with
  | sqlite => d.lacks .columnIntrospection
  | _ => .ok (d.columnProbe table column)

def indexProbe (d : Dialect) (table index : String) : String :=
  match d with
  | postgres =>
    countRows "pg_indexes"
      (both (named "tablename" (quoteLiteral table)) (named "indexname" (quoteLiteral index)))
  | sqlServer =>
    countRows "sys.indexes"
      (both (named "object_id" ("OBJECT_ID(" ++ wideLiteral table ++ ")"))
        (named "name" (wideLiteral index)))
  | oracle =>
    countRows "user_indexes"
      (both (named "table_name" (quoteLiteral table)) (named "index_name" (quoteLiteral index)))
  | sqlite =>
    countRows "sqlite_master"
      (both "type = 'index'"
        (both (named "tbl_name" (quoteLiteral table)) (named "name" (quoteLiteral index))))
  | generic | mySql =>
    countRows "information_schema.statistics"
      (both "table_schema = DATABASE()"
        (both (named "table_name" (quoteLiteral table)) (named "index_name" (quoteLiteral index))))

def indexExists (d : Dialect) (table index : String) : Except Error String :=
  match d with
  | generic => d.lacks .indexIntrospection
  | _ => .ok (d.indexProbe table index)

def foreignKeyProbe (d : Dialect) (table name : String) : String :=
  match d with
  | sqlServer =>
    countRows "sys.foreign_keys"
      (both (named "parent_object_id" ("OBJECT_ID(" ++ wideLiteral table ++ ")"))
        (named "name" (wideLiteral name)))
  | oracle =>
    countRows "user_constraints"
      (both "constraint_type = 'R'"
        (both (named "table_name" (quoteLiteral table))
          (named "constraint_name" (quoteLiteral name))))
  | mySql =>
    countRows "information_schema.table_constraints"
      (both "constraint_schema = DATABASE()"
        (both "constraint_type = 'FOREIGN KEY'"
          (both (named "table_name" (quoteLiteral table))
            (named "constraint_name" (quoteLiteral name)))))
  | generic | postgres | sqlite =>
    countRows "information_schema.table_constraints"
      (both "constraint_type = 'FOREIGN KEY'"
        (both (named "table_name" (quoteLiteral table))
          (named "constraint_name" (quoteLiteral name))))

def foreignKeyExists (d : Dialect) (table name : String) : Except Error String :=
  match d with
  | sqlite => d.lacks .foreignKeyIntrospection
  | _ => .ok (d.foreignKeyProbe table name)

end SqlCompose.Dialect
