/-
Values: the constants of an expression and the values bound to parameters.

A value is dynamic. Null and literal SQL are values too: the first stands for the
absence of one, the second is spliced into the statement instead of being bound.
A record is a captured container; its fields are read by name, the first of a
name winning.
-/
import SqlCompose.Guid
import SqlCompose.Number.Decimal
import SqlCompose.Time

namespace SqlCompose

inductive Value where
  | null
  | bool (b : Bool)
  | int (n : Int64)
  | float (x : Float)
  | decimal (d : Decimal)
  | string (s : String)
  | dateTime (t : DateTime)
  | guid (g : Guid)
  | binary (bytes : List UInt8)
  | list (items : List Value)
  | tuple (items : List Value)
  | record (fields : List (String × Value))
  | sql (text : String)

inductive Kind where
  | null | bool | int | float | decimal | string | dateTime | guid | binary | list | tuple | record
  | sql
  deriving DecidableEq, Repr

def Kind.name : Kind → String
  | null => "null"
  | bool => "bool"
  | int => "int"
  | float => "float"
  | decimal => "decimal"
  | string => "string"
  | dateTime => "datetime"
  | guid => "guid"
  | binary => "binary"
  | list => "list"
  | tuple => "tuple"
  | record => "record"
  | sql => "sql"

namespace Value

def kind : Value → Kind
  | null => .null
  | bool _ => .bool
  | int _ => .int
  | float _ => .float
  | decimal _ => .decimal
  | string _ => .string
  | dateTime _ => .dateTime
  | guid _ => .guid
  | binary _ => .binary
  | list _ => .list
  | tuple _ => .tuple
  | record _ => .record
  | sql _ => .sql

/-- The first field of that name of a captured container; nothing else has fields. -/
def field? (name : String) : Value → Option Value
  | record fields => fields.lookup name
  | _ => none

def isNull : Value → Bool
  | null => true
  | _ => false

def asBool? : Value → Option Bool
  | bool b => some b
  | _ => none

end Value

end SqlCompose
