/-
Identifiers. The generic engine writes them bare; the others put them between
their quotes and double the closing one inside, so any text can be a name.
-/
import SqlCompose.Dialect.Basic
import SqlCompose.Text.Quote

namespace SqlCompose

/-- The opening and closing quote of identifiers, where the engine has them. -/
def Dialect.identifierQuotes? : Dialect → Option (Char × Char)
  | generic => none
  | mySql => some (backtick, backtick)
  | sqlServer => some ('[', ']')
  | postgres | oracle | sqlite => some ('"', '"')

namespace Target

/-- An identifier as the engine reads it. -/
def quoteIdentifier (t : Target) (name : String) : String :=
  match t.dialect.identifierQuotes? with
  | none => name
  | some (opening, closing) => enclose opening closing name

def selectableTable (t : Target) (table : String) : String :=
  if t.dialect = .sqlServer ∧ t.options.sqlServerNoLock then
    t.quoteIdentifier table ++ " WITH (NOLOCK)"
  else t.quoteIdentifier table

def columnRef (t : Target) (table column : String) : String :=
  t.quoteIdentifier table ++ "." ++ t.quoteIdentifier column

end Target

end SqlCompose
