/-
Rendering: a reduced expression becomes SQL text, and its constants become
parameters in the order in which they are met.

`Binder` carries the parameters along; what was bound before an error stays
bound. Null, truth values, literal SQL and lists are written out; everything else
is bound, so no value of the caller gets into the text.
-/
import SqlCompose.Dialect.Names
import SqlCompose.Dialect.Operators
import SqlCompose.Dialect.Types
import SqlCompose.Error
import SqlCompose.Expr.Basic
import SqlCompose.Parameters

namespace SqlCompose

/-- Computations that bind parameters and may fail. -/
abbrev Binder := ExceptT Error (StateM Parameters)

namespace Binder

/-- Binds a value and answers the name it is bound under. -/
def bindValue (v : Value) : Binder String := do
  let p ← get
  set (p.push v)
  return p.nextKey

def refuse (cause : Unsupported) : Binder α := throw (.unsupported cause)

end Binder

namespace Target

mutual

/-- A constant: written out if it is null, a truth value, literal SQL or a list of constants, bound
otherwise. -/
def renderValue (t : Target) : Value → Binder String
  | .null => return "NULL"
  | .bool b => return t.dialect.boolLiteral b
  | .sql text => return text
  | .list items => do return "(" ++ commaList (← renderValues t items) ++ ")"
  | .tuple items => do return "(" ++ commaList (← renderValues t items) ++ ")"
  | .record _ => .refuse .recordAsValue
  | v => .bindValue v

def renderValues (t : Target) : List Value → Binder (List String)
  | [] => return []
  | v :: rest => do
    let v ← renderValue t v
    let rest ← renderValues t rest
    return v :: rest

end

/-- The end of a range that is written into the statement instead of being bound. -/
def writtenBound? (t : Target) : Expr → Option String
  | .const (.dateTime d) =>
    if t.options.bindBetweenDateTimes then none else some (t.dialect.dateTimeLiteral d)
  | _ => none

/-- A text that is known, or else the one to be rendered. -/
def writtenOr (written : Option String) (rendered : Binder String) : Binder String :=
  match written with
  | some text => return text
  | none => rendered

def castType (args : List Expr) : Except Unsupported TypeUse :=
  match args with
  | _ :: .const (.string name) :: rest =>
    match LogicalType.ofName? name with
    | none => .error (.unknownCastType name)
    | some ty =>
      match rest with
      | .const (.int n) :: _ =>
        if 0 ≤ n.toInt ∧ n.toInt.toNat < UInt32.size then
          .ok { ty := ty, size := UInt32.ofNat n.toInt.toNat, casting := true }
        else .error (.castSizeOutOfRange n)
      | _ => .ok { ty := ty, casting := true }
  | _ :: _ :: _ => .error .castTypeNotConstant
  | _ => .error (.missingArgument .cast 1)

def aliasName (args : List Expr) : Except Unsupported String :=
  match args with
  | _ :: .const (.string name) :: _ => .ok name
  | _ :: _ :: _ => .error .aliasNotConstant
  | _ => .error (.missingArgument .named 1)

/-- A membership test in a list of constants that is empty, which nothing passes. -/
def isEmptyList : Expr → Bool
  | .const (.list []) | .const (.tuple []) => true
  | _ => false

/-- A list of constants brings its own parentheses. -/
def isConstantList : Expr → Bool
  | .const (.list _) | .const (.tuple _) => true
  | _ => false

def applied (function : String) (args : List String) : String :=
  function ++ "(" ++ commaList args ++ ")"

def memberTest (operand : String) (list : Expr) (values : String) : String :=
  if isConstantList list then "(" ++ operand ++ " IN " ++ values ++ ")"
  else "(" ++ operand ++ " IN (" ++ values ++ "))"

def rangeTest (operand low high : String) : String :=
  "(" ++ operand ++ " BETWEEN " ++ low ++ " AND " ++ high ++ ")"

def functionOf (t : Target) : Intrinsic → String → String
  | .min, x => applied "MIN" [x]
  | .max, x => applied "MAX" [x]
  | .sum, x => applied "SUM" [x]
  | .average, x => applied "AVG" [x]
  | .count, x => applied "COUNT" [x]
  | .trim, x => t.dialect.trim x
  | .length, x => applied t.dialect.lengthFunction [x]
  | .upper, x => applied "UPPER" [x]
  | _, x => applied "LOWER" [x]

mutual

def render (t : Target) : Expr → Binder String
  | .column table name => return t.columnRef table.name name
  | .member _ name => .refuse (.unresolvedMember name)
  | .const v => t.renderValue v
  | .unary op e => do return Dialect.unary op (← render t e)
  | .binary op l r =>
    if op.isEquality && r.isNull then do return Dialect.nullTest op (← render t l)
    else if op.isEquality && l.isNull then do return Dialect.nullTest op (← render t r)
    else do
      let l ← render t l
      let r ← render t r
      return t.dialect.binary op l r
  | .call callee args =>
    match callee.intrinsic? with
    | some f => renderCall t f args
    | none => .refuse (.callSurvived callee.declaring callee.name)
  | .tuple items => do return commaList (← renderAll t items)

def renderAll (t : Target) : List Expr → Binder (List String)
  | [] => return []
  | e :: rest => do
    let e ← render t e
    let rest ← renderAll t rest
    return e :: rest

/-- The text of an intrinsic call. Names and types are looked at before the operand is rendered. -/
def renderCall (t : Target) (f : Intrinsic) : List Expr → Binder String
  | [] =>
    match f with
    | .count => return "COUNT(*)"
    | .named | .cast => .refuse (.missingArgument f 1)
    | _ => .refuse (.missingArgument f 0)
  | x :: rest =>
    match f with
    | .named =>
      match aliasName (x :: rest) with
      | .error cause => .refuse cause
      | .ok name => do return (← render t x) ++ " AS " ++ t.quoteIdentifier name
    | .cast =>
      match castType (x :: rest) with
      | .error cause => .refuse cause
      | .ok use => do return "CAST(" ++ (← render t x) ++ " AS " ++ t.dialect.typeName use ++ ")"
    | .between => do
      let operand ← render t x
      match rest with
      | [] => .refuse (.missingArgument .between 1)
      | low :: [] => do
        discard (writtenOr (t.writtenBound? low) (render t low))
        .refuse (.missingArgument .between 2)
      | low :: high :: _ => do
        let low ← writtenOr (t.writtenBound? low) (render t low)
        let high ← writtenOr (t.writtenBound? high) (render t high)
        return rangeTest operand low high
    | .member => do
      let operand ← render t x
      match rest with
      | [] => .refuse (.missingArgument .member 1)
      | list :: _ =>
        if isEmptyList list then return t.dialect.binary .eq "1" "0"
        else do return memberTest operand list (← render t list)
    | .like => do
      let operand ← render t x
      match rest with
      | [] => .refuse (.missingArgument .like 1)
      | pattern :: _ => do return "(" ++ operand ++ " LIKE " ++ (← render t pattern) ++ ")"
    | .ifNull => do
      let operand ← render t x
      match rest with
      | [] => .refuse (.missingArgument .ifNull 1)
      | fallback :: _ => do
        return applied t.dialect.nullFunction [operand, ← render t fallback]
    | f => do return t.functionOf f (← render t x)

end

end Target

end SqlCompose
