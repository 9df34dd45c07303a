/-
Reduction: everything that can be computed before the statement runs becomes a
constant, so that what is left are columns, intrinsic calls and operators over
them.

Children are reduced from left to right and then combined by the `reduce…`
function of their node, which looks at the reduced children only. A Boolean
column that stands where a condition is wanted means `column = true`.
-/
import SqlCompose.Expr.Basic
import SqlCompose.Expr.Fold

namespace SqlCompose

/-- Where an expression stands. -/
inductive Position where
  | predicate
  | value
  deriving DecidableEq, Repr

/-- Operands of AND and OR are conditions, all others are values. -/
def BinaryOp.operandPosition (op : BinaryOp) : Position :=
  if op.isLogical then .predicate else .value

def UnaryOp.operandPosition : UnaryOp → Position
  | not => .predicate
  | neg => .value

namespace Expr

/-- A column has to exist; a Boolean one is compared with true where a condition is wanted. -/
def reduceColumn (p : Position) (table : Table) (name : String) : Except Error Expr :=
  match table.field? name with
  | none => .error (.unsupported (.noColumn table.entity name))
  | some f =>
    if f.ty = .boolean ∧ p = .predicate then
      .ok (binary .eq (column table name) (const (.bool true)))
    else .ok (column table name)

def reduceMember (name : String) : Expr → Except Error Expr
  | const v =>
    match v.field? name with
    | some x => .ok (const x)
    | none => .error (.unsupported (.noMember v.kind name))
  | e => .error (.unsupported (.memberOfNonConstant name e))

/-- NOT inverts a comparison and flips a truth value; anything else keeps it. -/
def reduceNot : Expr → Expr
  | binary op l r =>
    match op.inverse? with
    | some inv => binary inv l r
    | none => unary .not (binary op l r)
  | const (.bool b) => const (.bool !b)
  | e => unary .not e

/-- Numbers are negated; the least integer has no negation. -/
def reduceNeg : Expr → Except Error Expr
  | const (.int n) =>
    match int64? (-n.toInt) with
    | some m => .ok (const (.int m))
    | none => .error (.unsupported .negationOverflow)
  | const (.float x) => .ok (const (.float (-x)))
  | const (.decimal d) => .ok (const (.decimal d.neg))
  | e => .ok (unary .neg e)

def reduceUnary (op : UnaryOp) (e : Expr) : Except Error Expr :=
  match op with
  | .not => .ok (reduceNot e)
  | .neg => reduceNeg e

/-- A constant operand of AND or OR decides the whole or drops out. -/
def reduceLogical (op : BinaryOp) (l r : Expr) : Expr :=
  let decides := op == .or
  match l.asBool?, r.asBool? with
  | some b, some c => if b = decides then const (.bool b) else if c = decides then const (.bool c) else r
  | some b, none => if b = decides then const (.bool b) else r
  | none, some c => if c = decides then const (.bool c) else l
  | none, none => binary op l r

/-- Comparisons of two constants are decided where they can be. -/
def reduceComparison (op : BinaryOp) (l r : Value) : Expr :=
  match Value.decide? op l r with
  | some b => const (.bool b)
  | none => binary op (const l) (const r)

/-- Operators over two constants are computed, unless one is null or literal SQL. -/
def reduceBinary (op : BinaryOp) (l r : Expr) : Except Error Expr :=
  if op.isLogical then .ok (reduceLogical op l r)
  else
    match l, r with
    | const a, const b =>
      if a.isRaw || b.isRaw then .ok (binary op l r)
      else if op.isComparison then .ok (reduceComparison op a b)
      else (Value.fold op a b).map const
    | _, _ => .ok (binary op l r)

def reduceIntrinsic (f : Intrinsic) (args : List Expr) : Except Error Expr :=
  if f.accepts args.length then .ok (intrinsic f args)
  else .error (.unsupported (.argumentCount f args.length))

/-- A call of the host needs constants, and makes one. -/
def reduceHostCall (name : String) (f : HostFn) (args : List Expr) : Except Error Expr :=
  match constants? args with
  | none => .error (.unsupported (.hostCallOnColumns name))
  | some values =>
    match f values with
    | .ok v => .ok (const v)
    | .error message => .error (.hostCall name message)

/-- A tuple of constants is a constant tuple. -/
def reduceTuple (items : List Expr) : Expr :=
  match constants? items with
  | some values => const (.tuple values)
  | none => tuple items

mutual

/-- The reduced form of an expression that stands at `p`. -/
def reduce : Expr → Position → Except Error Expr
  | const v, _ => .ok (const v)
  | column table name, p => reduceColumn p table name
  | member base name, _ => do reduceMember name (← reduce base .value)
  | unary op e, _ => do reduceUnary op (← reduce e op.operandPosition)
  | binary op l r, _ => do
    let l ← reduce l op.operandPosition
    let r ← reduce r op.operandPosition
    reduceBinary op l r
  | call callee args, _ =>
    match callee.intrinsic?, callee.host with
    | some f, _ => do reduceIntrinsic f (← reduceAll args)
    | none, some host => do reduceHostCall callee.name host (← reduceAll args)
    | none, none => .error (.unsupported (.noSqlForm callee.declaring callee.name))
  | tuple items, _ => do return reduceTuple (← reduceAll items)

/-- Arguments and items are values, reduced from left to right. -/
def reduceAll : List Expr → Except Error (List Expr)
  | [] => .ok []
  | e :: rest => do
    let e ← reduce e .value
    let rest ← reduceAll rest
    return e :: rest

end

end Expr

end SqlCompose
