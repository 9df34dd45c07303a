/-
The keyword of each logical type in each engine. A size of zero leaves the length
to the engine; a decimal has 18 digits then. Some engines want other keywords in
a cast than in a column.
-/
import SqlCompose.Dialect.Basic
import SqlCompose.Schema.LogicalType

namespace SqlCompose

/-- What a type keyword depends on. -/
structure TypeUse where
  ty : LogicalType
  size : UInt32 := 0
  precision : UInt32 := 0
  casting : Bool := false

namespace TypeUse

def sized (keyword : String) (size : UInt32) : String := keyword ++ "(" ++ size.toNat.repr ++ ")"

/-- A keyword with total digits and digits after the point. -/
def exact (keyword : String) (u : TypeUse) : String :=
  let digits := if u.size = 0 then 18 else u.size.toNat
  keyword ++ "(" ++ digits.repr ++ ", " ++ u.precision.toNat.repr ++ ")"

/-- Standard keywords, the base the engines differ from. -/
def standard (u : TypeUse) : String :=
  match u.ty with
  | .boolean => "BOOLEAN"
  | .short => "SMALLINT"
  | .integer => "INTEGER"
  | .long => "BIGINT"
  | .float => "REAL"
  | .double => "DOUBLE PRECISION"
  | .decimal => exact "DECIMAL" u
  | .string =>
    if u.size ≠ 0 then sized "VARCHAR" u.size else if u.casting then "VARCHAR" else "TEXT"
  | .dateTime => "TIMESTAMP"
  | .guid => "CHAR(36)"
  | .binary => if u.size ≠ 0 then sized "VARBINARY" u.size else "BLOB"

def mySqlCast (u : TypeUse) : String :=
  match u.ty with
  | .boolean | .short | .integer | .long => "SIGNED"
  | .float | .double => "DOUBLE"
  | .decimal => exact "DECIMAL" u
  | .string => if u.size ≠ 0 then sized "CHAR" u.size else "CHAR"
  | .dateTime => "DATETIME"
  | .guid => "CHAR(36)"
  | .binary => "BINARY"

def mySqlColumn (u : TypeUse) : String :=
  match u.ty with
  | .boolean => "TINYINT(1)"
  | .short => "SMALLINT"
  | .integer => "INT"
  | .long => "BIGINT"
  | .float => "FLOAT"
  | .double => "DOUBLE"
  | .string => if u.size = 0 then "LONGTEXT" else standard u
  | .dateTime => "DATETIME"
  | .binary => if u.size = 0 then "LONGBLOB" else standard u
  | .decimal | .guid => standard u

def postgres (u : TypeUse) : String :=
  match u.ty with
  | .decimal => exact "NUMERIC" u
  | .guid => "UUID"
  | .binary => "BYTEA"
  | .string => if u.size = 0 then "TEXT" else standard u
  | _ => standard u

def sqlServer (u : TypeUse) : String :=
  match u.ty with
  | .boolean => "BIT"
  | .short => "SMALLINT"
  | .integer => "INT"
  | .long => "BIGINT"
  | .float => "REAL"
  | .double => "FLOAT"
  | .decimal => exact "DECIMAL" u
  | .string => if u.size ≠ 0 then sized "NVARCHAR" u.size else "NVARCHAR(MAX)"
  | .dateTime => "DATETIME2"
  | .guid => "UNIQUEIDENTIFIER"
  | .binary => if u.size ≠ 0 then sized "VARBINARY" u.size else "VARBINARY(MAX)"

def oracle (u : TypeUse) : String :=
  match u.ty with
  | .boolean => "NUMBER(1)"
  | .short => "NUMBER(5)"
  | .integer => "NUMBER(10)"
  | .long => "NUMBER(19)"
  | .float => "BINARY_FLOAT"
  | .double => "BINARY_DOUBLE"
  | .decimal => exact "NUMBER" u
  | .string =>
    if u.size ≠ 0 then sized "NVARCHAR2" u.size
    else if u.casting then "NVARCHAR2(2000)" else "NCLOB"
  | .dateTime => "TIMESTAMP"
  | .guid => "CHAR(36)"
  | .binary => if u.size ≠ 0 then sized "RAW" u.size else "BLOB"

def sqlite (u : TypeUse) : String :=
  match u.ty with
  | .boolean | .short | .integer | .long => "INTEGER"
  | .float | .double => "REAL"
  | .decimal => "NUMERIC"
  | .string | .guid | .dateTime => "TEXT"
  | .binary => "BLOB"

end TypeUse

def Dialect.typeName (d : Dialect) (u : TypeUse) : String :=
  match d with
  | .generic => u.standard
  | .mySql => if u.casting then u.mySqlCast else u.mySqlColumn
  | .postgres => u.postgres
  | .sqlServer => u.sqlServer
  | .oracle => u.oracle
  | .sqlite => u.sqlite

end SqlCompose
