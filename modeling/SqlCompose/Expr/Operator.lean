/-
Operators of the expression language, the directions of a sort and the kinds of a
join.
-/

namespace SqlCompose

inductive BinaryOp where
  | eq | ne | gt | ge | lt | le
  | and | or
  | add | sub | mul | div | rem
  /-- String concatenation, which every engine writes in its own way. -/
  | concat
  deriving DecidableEq, Repr

namespace BinaryOp

def isComparison : BinaryOp → Bool
  | eq | ne | gt | ge | lt | le => true
  | _ => false

def isLogical : BinaryOp → Bool
  | and | or => true
  | _ => false

def isEquality : BinaryOp → Bool
  | eq | ne => true
  | _ => false

/-- The comparison that holds exactly when this one does not. -/
def inverse? : BinaryOp → Option BinaryOp
  | eq => some ne
  | ne => some eq
  | gt => some le
  | le => some gt
  | lt => some ge
  | ge => some lt
  | _ => none

def symbol : BinaryOp → String
  | eq => "="
  | ne => "<>"
  | gt => ">"
  | ge => ">="
  | lt => "<"
  | le => "<="
  | and => "AND"
  | or => "OR"
  | add => "+"
  | sub => "-"
  | mul => "*"
  | div => "/"
  | rem => "%"
  | concat => "||"

/-- Whether a comparison holds of two values that stand in the given order. -/
def holds? (op : BinaryOp) (o : Ordering) : Option Bool :=
  match op with
  | eq => some (o == .eq)
  | ne => some (o != .eq)
  | gt => some (o == .gt)
  | ge => some (o != .lt)
  | lt => some (o == .lt)
  | le => some (o != .gt)
  | _ => none

theorem inverse?_isSome (op : BinaryOp) : op.inverse?.isSome = op.isComparison := by
  cases op <;> rfl

/-- An operator with an inverse is a comparison, and so is the inverse. -/
theorem kind_of_inverse? {op inv : BinaryOp} (h : op.inverse? = some inv) :
    op.isLogical = false ∧ op.isComparison = true ∧
      inv.isLogical = false ∧ inv.isComparison = true := by
  cases op <;> cases h <;> decide

theorem inverse?_inverse? {op inv : BinaryOp} (h : op.inverse? = some inv) :
    inv.inverse? = some op := by
  cases op <;> cases h <;> rfl

end BinaryOp

inductive UnaryOp where
  | not
  | neg
  deriving DecidableEq, Repr

inductive Direction where
  | ascending
  | descending
  deriving DecidableEq, Repr

/-- What follows a sort expression; ascending is the default of every engine. -/
def Direction.suffix : Direction → String
  | ascending => ""
  | descending => " DESC"

inductive JoinKind where
  | inner
  | left
  | right
  deriving DecidableEq, Repr

def JoinKind.keyword : JoinKind → String
  | inner => "INNER JOIN"
  | left => "LEFT JOIN"
  | right => "RIGHT JOIN"

end SqlCompose
