/-
Expressions: the trees that conditions, projections and sort keys are given as.

A column belongs to a table. A member is read from the value of another
expression; that is how captured variables come in. A call names its declaring
type and may carry a function of the host, which turns constants into a constant
before any SQL is written.
-/
import SqlCompose.Expr.Intrinsic
import SqlCompose.Expr.Operator
import SqlCompose.Schema.Table
import SqlCompose.Value

namespace SqlCompose

/-- A function of the host, or the message it fails with. -/
abbrev HostFn := List Value → Except String Value

/-- The target of a call. -/
structure Callee where
  declaring : String
  name : String
  host : Option HostFn := none

/-- The intrinsic a callee stands for, whatever function it carries. -/
def Callee.intrinsic? (c : Callee) : Option Intrinsic := Intrinsic.resolve? c.declaring c.name

def Callee.ofIntrinsic (f : Intrinsic) : Callee := { declaring := Intrinsic.marker, name := f.name }

@[simp] theorem Callee.intrinsic?_ofIntrinsic (f : Intrinsic) :
    (Callee.ofIntrinsic f).intrinsic? = some f := Intrinsic.resolve?_name f

inductive Expr where
  | column (table : Table) (name : String)
  | member (base : Expr) (name : String)
  | const (v : Value)
  | binary (op : BinaryOp) (lhs rhs : Expr)
  | unary (op : UnaryOp) (operand : Expr)
  | call (callee : Callee) (args : List Expr)
  | tuple (items : List Expr)

namespace Expr

def asConst? : Expr → Option Value
  | const v => some v
  | _ => none

/-- The values of expressions that are all constant. -/
def constants? (items : List Expr) : Option (List Value) := items.mapM asConst?

/-- The truth value of a constant that has one. -/
def asBool? : Expr → Option Bool
  | const (.bool b) => some b
  | _ => none

def isNull : Expr → Bool
  | const .null => true
  | _ => false

def intrinsic (f : Intrinsic) (args : List Expr) : Expr := call (.ofIntrinsic f) args

end Expr

end SqlCompose
