/-
Operators on constants: which comparisons are decided, and what arithmetic and
concatenation give.

Values compare within their sort, and integers with decimals and doubles. Integer
arithmetic is exact or fails: it never wraps. A decimal beside an integer makes a
decimal; a double beside an integer makes a double; a decimal beside a double is
refused.
-/
import SqlCompose.Error
import SqlCompose.Number.Decimal.Arith
import SqlCompose.Number.Decimal.Remainder
import SqlCompose.Number.Word

namespace SqlCompose

/-- The order of two doubles; a NaN has none. -/
def floatCompare? (x y : Float) : Option Ordering :=
  if x < y then some .lt else if x == y then some .eq else if y < x then some .gt else none

/-- The order of two truth values, false first. -/
def boolCompare : Bool → Bool → Ordering
  | false, true => .lt
  | true, false => .gt
  | _, _ => .eq

/-- Exact integer arithmetic; division goes toward zero. The remainder of the least integer by
minus one is refused with the quotient it belongs to. -/
def intArith (op : BinaryOp) (l r : Int) : Option Int64 :=
  match op with
  | .add => int64? (l + r)
  | .sub => int64? (l - r)
  | .mul => int64? (l * r)
  | .div => if r = 0 then none else int64? (l.tdiv r)
  | .rem => if r = 0 ∨ (l = Int64.minValue.toInt ∧ r = -1) then none else int64? (l.tmod r)
  | _ => none

def decimalArith (op : BinaryOp) (l r : Decimal) : Option Decimal :=
  match op with
  | .add => l.add r
  | .sub => l.sub r
  | .mul => l.mul r
  | .div => l.div r
  | .rem => l.rem r
  | _ => none

def floatArith (op : BinaryOp) (l r : Float) : Option Float :=
  match op with
  | .add => some (l + r)
  | .sub => some (l - r)
  | .mul => some (l * r)
  | .div => some (l / r)
  | .rem => some (floatRem l r)
  | _ => none

namespace Value

/-- Null and literal SQL: nothing is known of them before the statement runs. -/
def isRaw : Value → Bool
  | null | sql _ => true
  | _ => false

def isString : Value → Bool
  | string _ => true
  | _ => false

def isDecimal : Value → Bool
  | decimal _ => true
  | _ => false

def asDecimal? : Value → Option Decimal
  | int n => some (.ofInt64 n)
  | decimal d => some d
  | _ => none

def asFloat? : Value → Option Float
  | int n => some n.toFloat
  | float x => some x
  | _ => none

def compare? (l r : Value) : Option Ordering :=
  match l, r with
  | bool a, bool b => some (boolCompare a b)
  | string a, string b => some (compare a b)
  | dateTime a, dateTime b => some (a.compare b)
  | guid a, guid b => some (a.compare b)
  | int a, int b => some (compare a.toInt b.toInt)
  | _, _ =>
    if l.isDecimal || r.isDecimal then do return (← l.asDecimal?).compare (← r.asDecimal?)
    else do floatCompare? (← l.asFloat?) (← r.asFloat?)

/-- What a comparison says of two values; nothing when they have no order. -/
def decide? (op : BinaryOp) (l r : Value) : Option Bool := (l.compare? r).bind op.holds?

def mismatch (op : BinaryOp) (l r : Value) : Error :=
  .unsupported (.cannotApply op l.kind r.kind)

def concatenate (op : BinaryOp) (l r : Value) : Except Error Value :=
  match l.plainText?, r.plainText? with
  | some a, some b => .ok (string (a ++ b))
  | _, _ => .error (mismatch op l r)

def arithmetic (op : BinaryOp) (l r : Value) : Except Error Value :=
  match l, r with
  | int a, int b =>
    match intArith op a.toInt b.toInt with
    | some n => .ok (int n)
    | none => .error (.unsupported (.cannotFold op l r))
  | _, _ =>
    if l.isDecimal || r.isDecimal then
      match l.asDecimal?, r.asDecimal? with
      | some a, some b =>
        match decimalArith op a b with
        | some d => .ok (decimal d)
        | none => .error (.unsupported (.cannotFold op (decimal a) (decimal b)))
      | _, _ => .error (mismatch op l r)
    else
      match l.asFloat?, r.asFloat? with
      | some a, some b =>
        match floatArith op a b with
        | some x => .ok (float x)
        | none => .error (mismatch op l r)
      | _, _ => .error (mismatch op l r)

/-- Arithmetic or concatenation; adding to a text concatenates. -/
def fold (op : BinaryOp) (l r : Value) : Except Error Value :=
  if op = .concat ∨ (op = .add ∧ (l.isString ∨ r.isString)) then concatenate op l r
  else arithmetic op l r

end Value

end SqlCompose
