/-
A reader for the texts of shapes, and what it makes of columns and literals.

The reader goes from left to right and looks at the first characters only: a
parameter's name is known beforehand, since parameters are numbered in the order
of the text; everything else starts with a parenthesis, a quote or a letter. Every
operand ends where a space, a comma or a parenthesis follows, which is what `Stops`
says of the rest.
-/
import SqlCompose.Proofs.Shape

namespace SqlCompose

/-- Reads an operand whose first parameter has the given number. Answers its shape, the number of
the next parameter and what is left. -/
abbrev Reader := Nat → List Char → Option (Shape × Nat × List Char)

namespace Reader

def operator? (sign : List Char) : Option BinaryOp :=
  [.eq, .ne, .gt, .ge, .lt, .le, .and, .or, .add, .sub, .mul, .div, .rem, .concat].find?
    (·.symbol.toList == sign)

/-- A table's name, a point and a column's name. -/
def column? (d : Dialect) (cs : List Char) : Option (Shape × List Char) :=
  match d.identifierQuotes? with
  | some (opening, closing) => do
    let (table, rest) ← readQuoted closing (← strip? [opening] cs)
    let (name, rest) ← readQuoted closing (← strip? ['.', opening] rest)
    return (.column (.ofList table) (.ofList name), rest)
  | none => do
    let rest ← strip? ['.'] (cs.dropWhile isNameChar)
    return (.column (.ofList (cs.takeWhile isNameChar)) (.ofList (rest.takeWhile isNameChar)),
      rest.dropWhile isNameChar)

def literal? (d : Dialect) (cs : List Char) : Option (Shape × List Char) :=
  let word := String.ofList (cs.takeWhile isNameChar)
  let rest := cs.dropWhile isNameChar
  if word = "NULL" then some (.null, rest)
  else if word = d.boolLiteral true then some (.bool true, rest)
  else if word = d.boolLiteral false then some (.bool false, rest)
  else none

/-- An operand without parts. -/
def leaf? (d : Dialect) (cs : List Char) : Option (Shape × List Char) :=
  -- A word is a literal only if no point follows it.
  column? d cs <|> literal? d cs

/-- What follows the left operand of a group: a test for null, or an operator and a right one. -/
def afterLeft (operand : Reader) (l : Shape) : Reader := fun n cs =>
  match strip? " IS NULL)".toList cs, strip? " IS NOT NULL)".toList cs with
  | some rest, _ => some (.binary .eq l .null, n, rest)
  | none, some rest => some (.binary .ne l .null, n, rest)
  | none, none => do
    let rest ← strip? [' '] cs
    let op ← operator? (rest.takeWhile (· ≠ ' '))
    let (r, n, rest) ← operand n (← strip? [' '] (rest.dropWhile (· ≠ ' ')))
    return (.binary op l r, n, ← strip? [')'] rest)

def group (operand : Reader) : Reader := fun n cs =>
  match strip? "NOT ".toList cs, strip? ['-'] cs with
  | some rest, _ => do
    let (s, n, rest) ← operand n rest
    return (.unary .not s, n, ← strip? [')'] rest)
  | none, some rest => do
    let (s, n, rest) ← operand n rest
    return (.unary .neg s, n, ← strip? [')'] rest)
  | none, none => do
    let (l, n, rest) ← operand n cs
    afterLeft operand l n rest

def arguments (operand : Reader) : Reader := fun n cs => do
  let (l, n, rest) ← operand n cs
  let (r, n, rest) ← operand n (← strip? ", ".toList rest)
  return (.binary .concat l r, n, ← strip? [')'] rest)

/-- What follows the name of a concatenation that is written as a call. -/
def afterConcat? (d : Dialect) (cs : List Char) : Option (List Char) :=
  if d = .mySql then strip? "CONCAT(".toList cs else none

/-- An operand, given how smaller ones are read. -/
def operand (d : Dialect) (tag : String) (smaller : Reader) : Reader := fun n cs =>
  match strip? (Parameters.key tag n).toList cs, strip? ['('] cs, afterConcat? d cs with
  | some rest, _, _ => some (.hole, n + 1, rest)
  | none, some rest, _ => group smaller n rest
  | none, none, some rest => arguments smaller n rest
  | none, none, none => (leaf? d cs).map fun x => (x.1, n, x.2)

/-- An operand nested less than `fuel` deep. -/
def read (d : Dialect) (tag : String) : Nat → Reader
  | 0 => fun _ _ => none
  | fuel + 1 => operand d tag (read d tag fuel)

end Reader

/-! ## Where an operand starts and ends -/

/-- Characters that only parameters may start with. -/
def isMark (c : Char) : Bool :=
  !(isNameChar c || ['(', '-', backtick, '"', '['].contains c)

section Leaves

variable {t : Target} {d : Dialect} {rest : List Char}

end Leaves

end SqlCompose
