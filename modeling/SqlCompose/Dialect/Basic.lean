/-
The six engines a statement can be written for, the options they share, and a
target: an engine with its options.
-/

namespace SqlCompose

/-- An engine. The generic one is plain SQL with bare identifiers. -/
inductive Dialect where
  | generic
  | mySql
  | postgres
  | sqlServer
  | oracle
  | sqlite
  deriving DecidableEq, Repr

namespace Dialect

def all : List Dialect := [generic, mySql, postgres, sqlServer, oracle, sqlite]

def name : Dialect → String
  | generic => "Generic"
  | mySql => "MySql"
  | postgres => "Postgres"
  | sqlServer => "SqlServer"
  | oracle => "Oracle"
  | sqlite => "Sqlite"

def configName : Dialect → String
  | generic => "generic"
  | mySql => "mysql"
  | postgres => "postgres"
  | sqlServer => "sqlserver"
  | oracle => "oracle"
  | sqlite => "sqlite"

/-- What stands in front of a parameter's name. -/
def parameterTag : Dialect → String
  | oracle => ":"
  | _ => "@"

end Dialect

structure Options where
  /-- Made-up constraint names are cut to this many characters; zero leaves them whole. -/
  maxConstraintName : Nat := 20
  /-- Whether times in a range test are bound; if not, they are written into the statement. -/
  bindBetweenDateTimes : Bool := true
  /-- Whether SQL Server reads tables without locks. -/
  sqlServerNoLock : Bool := false
  deriving DecidableEq, Repr

/-- An engine with its options: all that the text of a statement depends on. -/
structure Target where
  dialect : Dialect := .generic
  options : Options := {}
  deriving DecidableEq, Repr

end SqlCompose
