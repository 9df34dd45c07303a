/-
The columns of an entity, described by what they hold and how they are marked.

A field starts from a name and a type; the other functions each set one mark, so
a description reads as a chain.
-/
import SqlCompose.Schema.LogicalType

namespace SqlCompose

/-- Where a column that numbers its own rows starts, and its step. -/
structure Identity where
  start : Int64 := 1
  increment : Int64 := 1
  deriving DecidableEq, Repr

structure Reference where
  table : String
  column : String
  constraint : Option String := none
  deriving DecidableEq, Repr

/-- The part a column has in an index. Columns that share a name share the index. -/
structure IndexMark where
  name : Option String := none
  unique : Bool := false
  deriving DecidableEq, Repr

/-- One column of an entity. `size` is the length of texts and bytes or the digits of a decimal,
zero for the engine's own choice; `precision` the digits after the point. An ignored field takes
no part in the table. -/
structure Field where
  name : String
  ty : LogicalType
  size : UInt32 := 0
  precision : UInt32 := 0
  nullable : Bool := false
  primaryKey : Bool := false
  identity : Option Identity := none
  reference : Option Reference := none
  index : Option IndexMark := none
  ignore : Bool := false
  deriving DecidableEq, Repr

namespace Field

def isIdentity (f : Field) : Bool := f.identity.isSome

def withSize (size : UInt32) (f : Field) : Field := { f with size := size }

def withPrecision (precision : UInt32) (f : Field) : Field := { f with precision := precision }

def asNullable (f : Field) : Field := { f with nullable := true }

def asPrimaryKey (f : Field) : Field := { f with primaryKey := true }

def asIdentity (identity : Identity) (f : Field) : Field := { f with identity := some identity }

def referencing (table column : String) (f : Field) : Field :=
  { f with reference := some { table := table, column := column } }

def withConstraint (name : String) (f : Field) : Field :=
  { f with reference := f.reference.map fun r => { r with constraint := some name } }

def indexMark (f : Field) : IndexMark := f.index.getD {}

def indexed (f : Field) : Field := { f with index := some f.indexMark }

def asUnique (f : Field) : Field := { f with index := some { f.indexMark with unique := true } }

def indexedAs (name : String) (f : Field) : Field :=
  { f with index := some { f.indexMark with name := some name } }

def ignored (f : Field) : Field := { f with ignore := true }

end Field

end SqlCompose
