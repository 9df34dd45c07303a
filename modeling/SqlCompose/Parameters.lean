/-
Parameters: the values a statement binds, in order, under the names that stand for
them in its text.

A new name is the tag, `p` and the number of entries at that moment, so names are
never given out twice by one table. Merging appends another table's entries as
they are.
-/
import SqlCompose.Value.Json

namespace SqlCompose

structure Parameters where
  tag : String := "@"
  entries : List (String × Value) := []

namespace Parameters

def key (tag : String) (n : Nat) : String := tag ++ "p" ++ n.repr

def size (p : Parameters) : Nat := p.entries.length

def isEmpty (p : Parameters) : Bool := p.entries.isEmpty

/-- The name the next value gets. -/
def nextKey (p : Parameters) : String := key p.tag p.size

def push (p : Parameters) (v : Value) : Parameters :=
  { p with entries := p.entries ++ [(p.nextKey, v)] }

/-- The entries of `q` after those of `p`, under their own names. -/
def merge (p q : Parameters) : Parameters := { p with entries := p.entries ++ q.entries }

def get? (p : Parameters) (key : String) : Option Value := p.entries.lookup key

def keys (p : Parameters) : List String := p.entries.map (·.1)

def values (p : Parameters) : List Value := p.entries.map (·.2)

/-- A table of these values in order. -/
def ofValues (tag : String) (values : List Value) : Parameters :=
  values.foldl push { tag := tag }

/-- The serialized form: one object, in order, repeated names kept. -/
def json (p : Parameters) : String := jsonObject (p.entries.map fun e => (e.1, e.2.json))

@[simp] theorem tag_push (p : Parameters) (v : Value) : (p.push v).tag = p.tag := rfl

@[simp] theorem size_push (p : Parameters) (v : Value) : (p.push v).size = p.size + 1 := by
  simp [push, size]

@[simp] theorem values_push (p : Parameters) (v : Value) : (p.push v).values = p.values ++ [v] := by
  simp [push, values]

end Parameters

end SqlCompose
