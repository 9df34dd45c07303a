/-
Tables, and the indexes derived from the marks of their fields: an unnamed mark
makes an index of its own, marks of one name share one.
-/
import SqlCompose.Schema.Field

namespace SqlCompose

/-- A checked table. Ignored fields are gone. -/
structure Table where
  entity : String
  name : String
  fields : List Field
  deriving DecidableEq, Repr

/-- An index over some columns; one without a name gets a made-up one. -/
structure Index where
  name : Option String
  columns : List String
  unique : Bool
  deriving DecidableEq, Repr

/-- One more column for the index of that name, which is opened if there is none yet. -/
def Index.extend (name column : String) (unique : Bool) : List Index → List Index
  | [] => [⟨some name, [column], unique⟩]
  | ix :: rest =>
    if ix.name = some name then
      { ix with columns := ix.columns ++ [column], unique := ix.unique || unique } :: rest
    else ix :: Index.extend name column unique rest

def Index.absorb (indexes : List Index) (f : Field) : List Index :=
  match f.index with
  | none => indexes
  | some ⟨none, unique⟩ => indexes ++ [⟨none, [f.name], unique⟩]
  | some ⟨some name, unique⟩ => Index.extend name f.name unique indexes

namespace Table

def field? (t : Table) (name : String) : Option Field := t.fields.find? (·.name == name)

def primaryKeys (t : Table) : List Field := t.fields.filter (·.primaryKey)

def hasSoleKey (t : Table) : Bool := t.primaryKeys.length == 1

/-- The place of the key field, when exactly one field is a key. -/
def idIndex? (t : Table) : Option Nat :=
  if t.hasSoleKey then t.fields.findIdx? (·.primaryKey) else none

def idField? (t : Table) : Option Field :=
  match t.primaryKeys with
  | [f] => some f
  | _ => none

def identityField? (t : Table) : Option Field := t.fields.find? (·.isIdentity)

def references (t : Table) : List Field := t.fields.filter (·.reference.isSome)

/-- The indexes in the order of their first columns. -/
def indexes (t : Table) : List Index := t.fields.foldl Index.absorb []

end Table

end SqlCompose
