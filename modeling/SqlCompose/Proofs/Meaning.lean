/-
What an expression means: a value, or a truth value of Kleene's three.

An `Interpretation` says what the engine makes of columns, intrinsic calls and
operators. It is free but for the laws its proof fields state: where a constant
can be computed beforehand, the engine computes the same, and an inverted
comparison is the negated one. Nothing is asked of null and literal SQL, nor of
what an unknown truth value is when it stands as an operand.

Functions of the host are partial, and so is the meaning of an expression that
calls them. `Interpretation.standard` shows that the laws can be met.
-/
import SqlCompose.Expr.Reduce

namespace SqlCompose

/-- Truth in three values. -/
inductive Truth where
  | holds
  | fails
  | unknown
  deriving DecidableEq, Repr

namespace Truth

def ofBool (b : Bool) : Truth := if b then holds else fails

def not : Truth → Truth
  | holds => fails
  | fails => holds
  | unknown => unknown

def and : Truth → Truth → Truth
  | holds, b => b
  | fails, _ => fails
  | unknown, fails => fails
  | unknown, _ => unknown

def or : Truth → Truth → Truth
  | fails, b => b
  | holds, _ => holds
  | unknown, holds => holds
  | unknown, _ => unknown

@[simp] theorem ofBool_not (b : Bool) : ofBool (!b) = (ofBool b).not := by cases b <;> rfl

@[simp] theorem holds_and (a : Truth) : holds.and a = a := rfl
@[simp] theorem fails_and (a : Truth) : fails.and a = fails := rfl
@[simp] theorem and_holds (a : Truth) : a.and holds = a := by cases a <;> rfl
@[simp] theorem and_fails (a : Truth) : a.and fails = fails := by cases a <;> rfl
@[simp] theorem holds_or (a : Truth) : holds.or a = holds := rfl
@[simp] theorem fails_or (a : Truth) : fails.or a = a := rfl
@[simp] theorem or_holds (a : Truth) : a.or holds = holds := by cases a <;> rfl
@[simp] theorem or_fails (a : Truth) : a.or fails = a := by cases a <;> rfl

end Truth

/-- OR joins by `Truth.or`, and AND, the other connective, by `Truth.and`. -/
def BinaryOp.connect (op : BinaryOp) : Truth → Truth → Truth :=
  if op = .or then Truth.or else Truth.and

def Table.isFlag (t : Table) (name : String) : Bool := (t.field? name).any (·.ty = .boolean)

/-- What the engine makes of columns, intrinsic calls and operators. -/
structure Interpretation where
  column : Table → String → Value
  intrinsic : Intrinsic → List Value → Value
  compare : BinaryOp → Value → Value → Truth
  arithmetic : BinaryOp → Value → Value → Value
  negate : Value → Value
  /-- The truth of a value that stands as a condition. -/
  truthOf : Value → Truth
  /-- What an unknown truth value is as an operand. -/
  unknownOperand : Value
  compare_inverse : ∀ {op inv : BinaryOp} (a b : Value), op.inverse? = some inv →
    compare inv a b = (compare op a b).not
  compare_decided : ∀ {op : BinaryOp} {a b : Value} {t : Bool}, a.isRaw = false → b.isRaw = false →
    Value.decide? op a b = some t → compare op a b = .ofBool t
  arithmetic_folded : ∀ {op : BinaryOp} {a b v : Value}, op.isLogical = false →
    op.isComparison = false → a.isRaw = false → b.isRaw = false → Value.fold op a b = .ok v →
    arithmetic op a b = v
  negate_folded : ∀ {a v : Value}, Expr.reduceNeg (.const a) = .ok (.const v) → negate a = v
  truthOf_bool : ∀ b, truthOf (.bool b) = .ofBool b

/-- What an expression stands for, before it is known whether a value or a condition is wanted. -/
inductive Meaning where
  | value (v : Value)
  /-- The value of a Boolean column. -/
  | flag (v : Value)
  | truth (t : Truth)

namespace Interpretation

def operand (I : Interpretation) : Truth → Value
  | .holds => .bool true
  | .fails => .bool false
  | .unknown => I.unknownOperand

/-- A meaning where a value is wanted. -/
def asValue (I : Interpretation) : Meaning → Value
  | .value v | .flag v => v
  | .truth t => I.operand t

/-- A meaning where a condition is wanted. A Boolean column is compared with true. -/
def asTruth (I : Interpretation) : Meaning → Truth
  | .value v => I.truthOf v
  | .flag v => I.compare .eq v (.bool true)
  | .truth t => t

/-- The meaning of an operator over two meanings. -/
def apply (I : Interpretation) (op : BinaryOp) (l r : Meaning) : Meaning :=
  if op.isLogical then .truth (op.connect (I.asTruth l) (I.asTruth r))
  else if op.isComparison then .truth (I.compare op (I.asValue l) (I.asValue r))
  else .value (I.arithmetic op (I.asValue l) (I.asValue r))

/-- The value of a call. A function of the host may have none. -/
def callValue (I : Interpretation) (callee : Callee) (args : List Value) : Option Value :=
  match callee.intrinsic?, callee.host with
  | some f, _ => some (I.intrinsic f args)
  | none, some host => (host args).toOption
  | none, none => none

mutual

/-- What an expression stands for, if its calls and members have values. -/
def meaning (I : Interpretation) : Expr → Option Meaning
  | .column table name =>
    let v := I.column table name
    some (if table.isFlag name then .flag v else .value v)
  | .member base name => do
    let v := I.asValue (← meaning I base)
    return .value (← v.field? name)
  | .const v => some (.value v)
  | .binary op l r => do return I.apply op (← meaning I l) (← meaning I r)
  | .unary .not e => do return .truth (I.asTruth (← meaning I e)).not
  | .unary .neg e => do return .value (I.negate (I.asValue (← meaning I e)))
  | .call callee args => do return .value (← I.callValue callee (← values I args))
  | .tuple items => do return .value (.tuple (← values I items))

def values (I : Interpretation) : List Expr → Option (List Value)
  | [] => some []
  | e :: rest => do
    let v := I.asValue (← meaning I e)
    return v :: (← values I rest)

end

example (I : Interpretation) (v : Value) : I.meaning (.const v) = some (.value v) := by
  rw [meaning]

def value (I : Interpretation) (e : Expr) : Option Value := (I.meaning e).map I.asValue

def truth (I : Interpretation) (e : Expr) : Option Truth := (I.meaning e).map I.asTruth

end Interpretation

/-! ## An interpretation that meets the laws -/

theorem BinaryOp.holds?_inverse? {op inv : BinaryOp} (h : op.inverse? = some inv) (o : Ordering) :
    inv.holds? o = (op.holds? o).map (!·) := by
  cases op <;> cases h <;> cases o <;> rfl

theorem Value.decide?_inverse? {op inv : BinaryOp} (h : op.inverse? = some inv) (a b : Value) :
    decide? inv a b = (decide? op a b).map (!·) := by
  simp only [decide?, Option.map_bind]
  congr 1
  funext o
  exact BinaryOp.holds?_inverse? h o

/-- What a comparison says of two values before the statement runs. -/
def Value.verdict (op : BinaryOp) (a b : Value) : Truth :=
  if a.isRaw || b.isRaw then .unknown else ((decide? op a b).map Truth.ofBool).getD .unknown

/-- The engine that computes exactly what can be computed beforehand, and answers null or unknown
elsewhere. -/
def Interpretation.standard (column : Table → String → Value) : Interpretation where
  column := column
  intrinsic _ _ := .null
  compare := Value.verdict
  arithmetic op a b := ((Value.fold op a b).toOption).getD .null
  negate a := ((Expr.reduceNeg (.const a)).toOption.bind Expr.asConst?).getD .null
  truthOf v := (v.asBool?.map Truth.ofBool).getD .unknown
  unknownOperand := .null
  compare_inverse a b h := by
    simp only [Value.verdict, Value.decide?_inverse? h]
    split
    · rfl
    · cases Value.decide? _ a b with
      | none => rfl
      | some t => simp
  compare_decided ha hb h := by simp [Value.verdict, ha, hb, h]
  arithmetic_folded _ _ _ _ h := by simp [h, Except.toOption]
  negate_folded h := by simp [h, Except.toOption, Expr.asConst?]
  truthOf_bool _ := rfl

end SqlCompose
