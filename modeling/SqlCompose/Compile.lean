/-
Compiling an expression for one place in a statement: it is reduced for that
place and then rendered. A condition that turns out constant is written as a
comparison of numbers, since not every engine has truth values.
-/
import SqlCompose.Expr.Reduce
import SqlCompose.Render

namespace SqlCompose

/-- The places an expression can be compiled for. -/
inductive Mode where
  | predicate
  | projection
  | ordering (direction : Direction)
  deriving DecidableEq, Repr

namespace Target

def reduced (e : Expr) (p : Position) : Binder Expr :=
  match e.reduce p with
  | .ok r => return r
  | .error err => throw err

/-- A reduced condition: a constant one as `(1 = 1)` or `(1 = 0)`. -/
def renderCondition (t : Target) (e : Expr) : Binder String :=
  match e.asBool? with
  | some b => return t.dialect.binary .eq "1" (if b then "1" else "0")
  | none => t.render e

/-- A reduced sort key: each item of a tuple carries the direction. -/
def renderOrdering (t : Target) (direction : Direction) (e : Expr) : Binder String :=
  match e with
  | .tuple items => do
    return commaList ((← t.renderAll items).map (· ++ direction.suffix))
  | e => do return (← t.render e) ++ direction.suffix

def predicate (t : Target) (e : Expr) : Binder String := do
  t.renderCondition (← reduced e .predicate)

/-- An entry of a select or grouping list; a tuple is as many entries as it has items. -/
def projection (t : Target) (e : Expr) : Binder String := do
  t.render (← reduced e .value)

def ordering (t : Target) (direction : Direction) (e : Expr) : Binder String := do
  t.renderOrdering direction (← reduced e .value)

def compile (t : Target) : Mode → Expr → Binder String
  | .predicate, e => t.predicate e
  | .projection, e => t.projection e
  | .ordering direction, e => t.ordering direction e

end Target

end SqlCompose
