/-
Names for constraints that have none: the kind, the table and the columns joined
by underscores, and cut to the length the options allow.
-/
import SqlCompose.Dialect.Basic
import SqlCompose.Error
import SqlCompose.Schema.Table
import SqlCompose.Text.Join

namespace SqlCompose.Ddl

/-- The first `limit` characters; zero is no limit. -/
def cutName (limit : Nat) (name : String) : String :=
  if limit = 0 ∨ name.toList.length ≤ limit then name else String.ofList (name.toList.take limit)

def madeUpForeignKey (table : Table) (field : Field) (r : Reference) : String :=
  "FK_" ++ joinWith "_" [table.name, field.name, r.table, r.column]

def madeUpIndex (table : Table) (index : Index) : String :=
  "IX_" ++ table.name ++ "_" ++ joinWith "_" index.columns

end SqlCompose.Ddl

namespace SqlCompose.Target

open Ddl

def reference (table : Table) (field : Field) : Except Error Reference :=
  match field.reference with
  | some r => .ok r
  | none => .error (.invalidSchema (.noReference table.name field.name))

/-- The name of a field's foreign key: its own, or a made-up one. -/
def foreignKeyName (t : Target) (table : Table) (field : Field) : Except Error String := do
  let r ← reference table field
  return r.constraint.getD (cutName t.options.maxConstraintName (madeUpForeignKey table field r))

/-- The name of an index: its own, or a made-up one. -/
def indexName (t : Target) (table : Table) (index : Index) : String :=
  index.name.getD (cutName t.options.maxConstraintName (madeUpIndex table index))

end SqlCompose.Target
