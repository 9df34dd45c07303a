/-
What can be wrong with a table, or with what is asked of it.
-/
import SqlCompose.Schema.LogicalType

namespace SqlCompose

inductive SchemaFault where
  | duplicateField (field table : String)
  | identityNotIntegral (table field : String) (ty : LogicalType)
  | severalIdentities (table : String)
  | noReference (table field : String)
  | noColumn (table column : String)
  | assignsNothing (table : String)
  deriving DecidableEq, Repr

def SchemaFault.message : SchemaFault → String
  | duplicateField field table => "duplicate field '" ++ field ++ "' on '" ++ table ++ "'"
  | identityNotIntegral table field ty =>
    "identity field '" ++ table ++ "." ++ field ++ "' must be integral, found " ++ ty.name
  | severalIdentities table => "table '" ++ table ++ "' declares more than one identity field"
  | noReference table field =>
    "column '" ++ table ++ "." ++ field ++ "' has no foreign key reference"
  | noColumn table column => "table '" ++ table ++ "' has no column '" ++ column ++ "'"
  | assignsNothing table => "update of '" ++ table ++ "' assigns no columns"

end SqlCompose
