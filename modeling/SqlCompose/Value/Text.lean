/-
The text of a value, as messages and concatenations show it. Strings stand
between apostrophes as they are, without doubling: the text is for reading and
never goes into a statement. Bytes show their number only.
-/
import SqlCompose.Number.Layout
import SqlCompose.Text.Join
import SqlCompose.Value

namespace SqlCompose

/-- Doubles in texts: the fewest digits, always positional, whole numbers without a point. -/
def plainFloat : FloatLayout where
  positional _ := true
  pointZero := false
  tie := .up
  nan := "NaN"
  infinity := "inf"

def boolText (b : Bool) : String := if b then "true" else "false"

def int64Text (n : Int64) : String := Int.repr n.toInt

namespace Value

mutual

def text : Value → String
  | null => "NULL"
  | bool b => boolText b
  | int n => int64Text n
  | float x => plainFloat.render x
  | decimal d => d.text
  | string s => "'" ++ s ++ "'"
  | dateTime t => "'" ++ t.text ++ "'"
  | guid g => "'" ++ g.text ++ "'"
  | binary bytes => "<" ++ bytes.length.repr ++ " bytes>"
  | list items => "(" ++ commaList (texts items) ++ ")"
  | tuple items => "(" ++ commaList (texts items) ++ ")"
  | record fields => "\x7b" ++ commaList (fieldTexts fields) ++ "\x7d"
  | sql s => s

def texts : List Value → List String
  | [] => []
  | v :: rest => text v :: texts rest

def fieldTexts : List (String × Value) → List String
  | [] => []
  | (name, v) :: rest => (name ++ ": " ++ text v) :: fieldTexts rest

end

/-- The text of a value inside a concatenation: bare, and only for values with one. -/
def plainText? : Value → Option String
  | string s => some s
  | int n => some (int64Text n)
  | float x => some (plainFloat.render x)
  | decimal d => some d.text
  | guid g => some g.text
  | bool b => some (boolText b)
  | _ => none

end Value

end SqlCompose
