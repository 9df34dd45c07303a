/-
The operations on the objects of a database, and how an engine without conditional
statements runs one of them: inside a block that passes over the errors which say
that there is nothing left to do.
-/
import SqlCompose.Dialect.Basic
import SqlCompose.Text.Join
import SqlCompose.Text.Quote

namespace SqlCompose.Ddl

inductive Op where
  | createTable
  | dropTable
  | createSequence
  | dropSequence
  | createTrigger
  | createColumn
  | dropColumn
  | createIndex
  | dropIndex
  | createForeignKey
  | dropForeignKey
  deriving DecidableEq, Repr

/-- Oracle's error codes that say the object is already as wanted. -/
def Op.doneCodes : Op → List Int
  | createTable | createSequence => [-955]
  | createIndex => [-955, -1408]
  | createTrigger => [-4081]
  | dropTable => [-942]
  | dropSequence => [-2289]
  | createColumn => [-1430]
  | dropColumn => [-904]
  | dropIndex => [-1418]
  | createForeignKey => [-2275, -2264]
  | dropForeignKey => [-2443]

/-- Oracle's block that runs a statement and raises every error but those of `op`. -/
def oracleGuard (op : Op) (statement : String) : String :=
  "BEGIN\n  EXECUTE IMMEDIATE " ++ quoteLiteral statement ++
    ";\nEXCEPTION\n  WHEN OTHERS THEN\n    IF SQLCODE NOT IN (" ++
    commaList (op.doneCodes.map Int.repr) ++ ") THEN\n      RAISE;\n    END IF;\nEND;"

/-- MySQL's way: the statement is chosen into a variable by a counting probe, and what was chosen
is run. -/
def mySqlGuard (probe statement : String) (whenPresent : Bool) : String :=
  "SET @sqlweave_ddl = IF((" ++ probe ++ ") " ++ (if whenPresent then "> 0" else "= 0") ++ ", " ++
    quoteLiteral statement ++
    ", 'SELECT 1'); PREPARE sqlweave_stmt FROM @sqlweave_ddl; EXECUTE sqlweave_stmt; " ++
    "DEALLOCATE PREPARE sqlweave_stmt"

def wideLiteral (s : String) : String := "N" ++ quoteLiteral s

end SqlCompose.Ddl

namespace SqlCompose

/-- Whether an error of the engine means that `op` had nothing to do. -/
def Dialect.isDone (d : Dialect) (op : Ddl.Op) (code : Int) : Bool :=
  d == .oracle && op.doneCodes.contains code

end SqlCompose
