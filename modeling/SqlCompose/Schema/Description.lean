/-
What an entity says of itself, and the check that makes a table of it. The check
goes field by field, in the order of declaration: no name twice, and only integral
fields may number their rows. Only then is the table refused for having two
identities.
-/
import SqlCompose.Error
import SqlCompose.Schema.Table

namespace SqlCompose

/-- An entity's account of its table, named like the entity unless it says otherwise. -/
structure Description where
  entity : String
  tableName : Option String := none
  fields : List Field := []
  deriving DecidableEq, Repr

namespace Description

def name (d : Description) : String := d.tableName.getD d.entity

def columns (d : Description) : List Field := d.fields.filter (!·.ignore)

/-- The first field that repeats a name among `seen`, or is an identity of a type that cannot be
one. -/
def firstFault (table : String) : List String → List Field → Option SchemaFault
  | _, [] => none
  | seen, f :: rest =>
    if f.name ∈ seen then some (.duplicateField f.name table)
    else if f.isIdentity ∧ ¬ f.ty.isIntegral then some (.identityNotIntegral table f.name f.ty)
    else firstFault table (f.name :: seen) rest

/-- Checks a description. -/
def build (d : Description) : Except Error Table :=
  match firstFault d.name [] d.columns with
  | some fault => .error (.invalidSchema fault)
  | none =>
    if 1 < d.columns.countP (·.isIdentity) then .error (.invalidSchema (.severalIdentities d.name))
    else .ok ⟨d.entity, d.name, d.columns⟩

end Description

end SqlCompose
