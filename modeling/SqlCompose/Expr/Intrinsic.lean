/-
The functions that have an SQL form of their own. A call is one of them when it
is declared on the marker type `Sql` and has one of the fifteen names; the same
name declared anywhere else is an ordinary call.
-/

namespace SqlCompose

inductive Intrinsic where
  | min | max | sum | average | count
  /-- Gives an expression a name in the result. -/
  | named
  | between
  /-- Membership in a list. -/
  | member
  | like | trim | length | upper | lower
  /-- Replaces null by a second value. -/
  | ifNull
  | cast
  deriving DecidableEq, Repr

namespace Intrinsic

/-- The declaring type of every intrinsic call. -/
def marker : String := "Sql"

def all : List Intrinsic :=
  [min, max, sum, average, count, named, between, member, like, trim, length, upper, lower, ifNull,
    cast]

def name : Intrinsic → String
  | min => "Min"
  | max => "Max"
  | sum => "Sum"
  | average => "Average"
  | count => "Count"
  | named => "As"
  | between => "Between"
  | member => "In"
  | like => "Like"
  | trim => "TrimSql"
  | length => "Length"
  | upper => "Upper"
  | lower => "Lower"
  | ifNull => "IsNull"
  | cast => "Cast"

/-- The intrinsic that a declaring type and a name stand for. -/
def resolve? (declaring name : String) : Option Intrinsic :=
  if declaring = marker then all.find? (·.name == name) else none

theorem resolve?_name (f : Intrinsic) : resolve? marker f.name = some f := by
  cases f <;> decide +kernel

def arity : Intrinsic → Nat × Nat
  | count => (0, 1)
  | min | max | sum | average | trim | length | upper | lower => (1, 1)
  | named | member | like | ifNull => (2, 2)
  | between => (3, 3)
  | cast => (2, 3)

def accepts (f : Intrinsic) (count : Nat) : Bool := f.arity.1 ≤ count && count ≤ f.arity.2

def arityText (f : Intrinsic) : String :=
  if f.arity.1 = f.arity.2 then f.arity.1.repr else f.arity.1.repr ++ "..=" ++ f.arity.2.repr

end Intrinsic

end SqlCompose
