/-
Literals, operators and functions. Every operator stands in parentheses of its
own, so the text of an expression never depends on the engine's precedence.
-/
import SqlCompose.Dialect.Basic
import SqlCompose.Expr.Operator
import SqlCompose.Time

namespace SqlCompose

namespace Dialect

def boolLiteral : Dialect → Bool → String
  | generic, b | postgres, b => if b then "true" else "false"
  | _, b => if b then "1" else "0"

def dateTimeLiteral (d : Dialect) (t : DateTime) : String :=
  (if d = oracle then "TIMESTAMP '" else "'") ++ t.text ++ "'"

def concat : Dialect → String → String → String
  | mySql, l, r => "CONCAT(" ++ l ++ ", " ++ r ++ ")"
  | sqlServer, l, r => "(" ++ l ++ " + " ++ r ++ ")"
  | _, l, r => "(" ++ l ++ " || " ++ r ++ ")"

def binary (d : Dialect) (op : BinaryOp) (l r : String) : String :=
  match op with
  | .concat => d.concat l r
  | _ => "(" ++ l ++ " " ++ op.symbol ++ " " ++ r ++ ")"

def unary : UnaryOp → String → String
  | .not, x => "(NOT " ++ x ++ ")"
  | .neg, x => "(-" ++ x ++ ")"

def nullTest (op : BinaryOp) (x : String) : String :=
  "(" ++ x ++ (if op = .eq then " IS NULL)" else " IS NOT NULL)")

/-- The function that replaces null by its second argument. -/
def nullFunction : Dialect → String
  | mySql | sqlite => "IFNULL"
  | sqlServer => "ISNULL"
  | oracle => "NVL"
  | generic | postgres => "COALESCE"

def lengthFunction : Dialect → String
  | mySql => "CHAR_LENGTH"
  | sqlServer => "LEN"
  | _ => "LENGTH"

def trim : Dialect → String → String
  | sqlServer, x => "LTRIM(RTRIM(" ++ x ++ "))"
  | _, x => "TRIM(" ++ x ++ ")"

/-- A statement wrapped so that it asks whether there are rows at all. -/
def existsProbe : Dialect → String → String
  | mySql, sql | postgres, sql | sqlite, sql => "SELECT EXISTS(" ++ sql ++ ")"
  | oracle, sql => "SELECT CASE WHEN EXISTS(" ++ sql ++ ") THEN 1 ELSE 0 END FROM DUAL"
  | generic, sql | sqlServer, sql => "SELECT CASE WHEN EXISTS(" ++ sql ++ ") THEN 1 ELSE 0 END"

/-- What to sort by where the engine wants a sort and none was given. -/
def defaultOrder? : Dialect → Option String
  | sqlServer => some "(SELECT NULL)"
  | _ => none

end Dialect

end SqlCompose
