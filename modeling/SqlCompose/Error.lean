/-
Everything that can go wrong, by cause. `Error.message` is the one place where a
cause gets its wording.
-/
import SqlCompose.Dialect.Basic
import SqlCompose.Expr.Basic
import SqlCompose.Schema.Fault
import SqlCompose.Value.Text

namespace SqlCompose

inductive Unsupported where
  | noColumn (entity column : String)
  | noMember (kind : Kind) (member : String)
  | memberOfNonConstant (member : String) (base : Expr)
  | negationOverflow
  | cannotFold (op : BinaryOp) (lhs rhs : Value)
  | cannotApply (op : BinaryOp) (lhs rhs : Kind)
  | argumentCount (f : Intrinsic) (count : Nat)
  | noSqlForm (declaring name : String)
  | hostCallOnColumns (name : String)
  | unresolvedMember (member : String)
  | callSurvived (declaring name : String)
  | missingArgument (f : Intrinsic) (position : Nat)
  | recordAsValue
  | aliasNotConstant
  | castTypeNotConstant
  | castSizeOutOfRange (size : Int64)
  | unknownCastType (name : String)

def Unsupported.message : Unsupported → String
  | noColumn entity column => "'" ++ entity ++ "' has no column '" ++ column ++ "'"
  | noMember kind member => kind.name ++ " value has no member '" ++ member ++ "'"
  -- The wording leaves out the printed tree of the base.
  | memberOfNonConstant member _ => "member '" ++ member ++ "' of a non-constant expression"
  | negationOverflow => "integer overflow in negation"
  | cannotFold op lhs rhs =>
    "cannot fold " ++ lhs.text ++ " " ++ op.symbol ++ " " ++ rhs.text
  | cannotApply op lhs rhs =>
    "cannot apply '" ++ op.symbol ++ "' to " ++ lhs.name ++ " and " ++ rhs.name
  | argumentCount f count =>
    "Sql." ++ f.name ++ " takes " ++ f.arityText ++ " argument(s), got " ++ count.repr
  | noSqlForm declaring name =>
    "call to " ++ declaring ++ "::" ++ name ++ " has no SQL translation"
  | hostCallOnColumns name => "host call '" ++ name ++ "' depends on column values"
  | unresolvedMember member => "unresolved member '" ++ member ++ "'"
  | callSurvived declaring name => "call to " ++ declaring ++ "::" ++ name ++ " survived evaluation"
  | missingArgument f position => "Sql." ++ f.name ++ " is missing argument " ++ position.repr
  | recordAsValue => "a captured container cannot be used as a value"
  | aliasNotConstant => "Sql.As needs a constant alias"
  | castTypeNotConstant => "Sql.Cast needs a constant target type"
  | castSizeOutOfRange size => "Sql.Cast size " ++ int64Text size ++ " is out of range"
  | unknownCastType name => "unknown cast target type '" ++ name ++ "'"

/-- What an engine may lack. -/
inductive Feature where
  | idempotentForeignKey
  | indexIntrospection
  | columnIntrospection
  | foreignKeyIntrospection
  | createDatabase
  | createDatabaseIfNotExists
  | dropDatabase
  | identityBesideKey
  | addColumnIfNotExists
  | dropColumn
  | addConstraint
  | dropConstraint
  deriving DecidableEq, Repr

def Feature.text : Feature → String
  | idempotentForeignKey => "idempotent foreign key creation"
  | indexIntrospection => "index introspection"
  | columnIntrospection => "column introspection"
  | foreignKeyIntrospection => "foreign key introspection"
  | createDatabase => "CREATE DATABASE"
  | createDatabaseIfNotExists => "CREATE DATABASE IF NOT EXISTS"
  | dropDatabase => "DROP DATABASE"
  | identityBesideKey => "identity on a column that is not the sole primary key"
  | addColumnIfNotExists => "ADD COLUMN IF NOT EXISTS"
  | dropColumn => "DROP COLUMN"
  | addConstraint => "ALTER TABLE ADD CONSTRAINT"
  | dropConstraint => "ALTER TABLE DROP CONSTRAINT"

inductive Error where
  | unsupported (cause : Unsupported)
  | unsupportedFeature (dialect : Dialect) (feature : Feature)
  | hostCall (name message : String)
  | alreadyBuilt
  | pagingConflict
  | noSingleKey (table : String)
  | invalidSchema (fault : SchemaFault)

def Error.message : Error → String
  | unsupported cause => "Unsupported expression: " ++ cause.message
  | unsupportedFeature dialect feature => dialect.name ++ " does not support " ++ feature.text
  | hostCall name message => "Host call '" ++ name ++ "' failed: " ++ message
  | alreadyBuilt => "Query has already been built"
  | pagingConflict => "top() and paginate() cannot be combined on the same query"
  | noSingleKey table => "Table '" ++ table ++ "' has no single primary key field"
  | invalidSchema fault => "Invalid schema: " ++ fault.message

end SqlCompose
