/-
The logical types of columns. Each engine has its own keyword for each of them.
-/

namespace SqlCompose

inductive LogicalType where
  | boolean
  /-- Of 16 bits. -/
  | short
  /-- Of 32 bits. -/
  | integer
  /-- Of 64 bits. -/
  | long
  /-- Of single precision. -/
  | float
  /-- Of double precision. -/
  | double
  | decimal
  | string
  | dateTime
  | guid
  | binary
  deriving DecidableEq, Repr

namespace LogicalType

def all : List LogicalType :=
  [boolean, short, integer, long, float, double, decimal, string, dateTime, guid, binary]

def name : LogicalType → String
  | boolean => "Boolean"
  | short => "Short"
  | integer => "Integer"
  | long => "Long"
  | float => "Float"
  | double => "Double"
  | decimal => "Decimal"
  | string => "String"
  | dateTime => "DateTime"
  | guid => "Guid"
  | binary => "Binary"

def ofName? (s : String) : Option LogicalType := all.find? (·.name == s)

/-- Only these can number their rows themselves. -/
def isIntegral : LogicalType → Bool
  | short | integer | long => true
  | _ => false

theorem ofName?_name (ty : LogicalType) : ofName? ty.name = some ty := by cases ty <;> decide

end LogicalType

end SqlCompose
