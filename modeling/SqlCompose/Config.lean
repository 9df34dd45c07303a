/-
Configuration: the engine and its options from the table `sql` of a TOML text.
What is missing has its default, and what is unknown is passed over; a date or time
in place of the table has no entry of any name, so it counts as an empty one.

`discover` takes the texts that were found, first the one of the working directory
and then the user's; the first that is there counts, even when it cannot be read.
-/
import SqlCompose.Dialect.Basic
import SqlCompose.Toml.Parser

namespace SqlCompose

inductive ConfigError where
  | missingFile
  | malformed
  deriving DecidableEq, Repr

namespace Config

def dialectNamed? (name : String) : Option Dialect := Dialect.all.find? (·.configName == name)

/-- Whether a value is empty: a table or an array without anything in it. -/
def isEmptyValue : Toml → Bool
  | .array [] | .table _ [] | .tables [] => true
  | _ => false

/-- An engine by its name, or as a table with the name and nothing in it. -/
def dialect? : Toml → Option Dialect
  | .string name => dialectNamed? name
  | .table _ [(name, v)] => if isEmptyValue v then dialectNamed? name else none
  | _ => none

def flag? : Toml → Option Bool
  | .bool b => some b
  | _ => none

def count? : Toml → Option Nat
  | .integer n => if 0 ≤ n.toInt then some n.toInt.toNat else none
  | _ => none

/-- An entry, or its default when it is missing. -/
def setting (entries : Toml.Entries) (name : String) (read : Toml → Option α) (default : α) :
    Option α :=
  match entries.lookup name with
  | none => some default
  | some v => read v

def ofEntries? (entries : Toml.Entries) : Option Target := do
  let base : Target := {}
  return {
    dialect := ← setting entries "dialect" dialect? base.dialect
    options := {
      maxConstraintName :=
        ← setting entries "max_constraint_name_len" count? base.options.maxConstraintName
      bindBetweenDateTimes :=
        ← setting entries "bind_between_datetimes" flag? base.options.bindBetweenDateTimes
      sqlServerNoLock := ← setting entries "sqlserver_nolock" flag? base.options.sqlServerNoLock } }

def parse (text : String) : Except ConfigError Target :=
  match Toml.parse? text with
  | none => .error .malformed
  | some root =>
    match root.lookup "sql" with
    | none => .ok {}
    | some (.time _) => .ok {}
    | some (.table _ entries) =>
      match ofEntries? entries with
      | some target => .ok target
      | none => .error .malformed
    | some _ => .error .malformed

/-- Reads the configuration of a file, whose text is there if the file is. -/
def load (text : Option String) : Except ConfigError Target :=
  match text with
  | none => .error .missingFile
  | some text => parse text

def discover (workingDirectory user : Option String) : Except ConfigError Target :=
  match workingDirectory, user with
  | some text, _ => parse text
  | none, some text => parse text
  | none, none => .ok {}

end Config

end SqlCompose
