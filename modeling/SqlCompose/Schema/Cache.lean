/-
A cache of tables, one for each entity. The first description of an entity that
builds is kept for good; one that does not build is not remembered, so a later
look-up tries again.
-/
import SqlCompose.Schema.Description

namespace SqlCompose

structure Cache (κ : Type) where
  entries : List (κ × Table) := []

namespace Cache

variable {κ : Type} [DecidableEq κ]

def get? (c : Cache κ) (k : κ) : Option Table := c.entries.lookup k

def size (c : Cache κ) : Nat := c.entries.length

def isEmpty (c : Cache κ) : Bool := c.entries.isEmpty

/-- The table of entity `k`: the cached one, or else the one its description builds. -/
def table (describe : κ → Description) (k : κ) (c : Cache κ) : Except Error Table × Cache κ :=
  match c.get? k with
  | some t => (.ok t, c)
  | none =>
    match (describe k).build with
    | .ok t => (.ok t, ⟨c.entries ++ [(k, t)]⟩)
    | .error e => (.error e, c)

end Cache

end SqlCompose
