/-
Reading a date and time: year, month and day with hyphens, `T`, hours, minutes
and seconds with colons, and a fraction. White space may stand before each
number and separator. A year without a sign has at most four digits; second 60 is
a leap second; of a fraction nine digits count.
-/
import SqlCompose.Text.Blank
import SqlCompose.Number.Decimal.Parser
import SqlCompose.Time

namespace SqlCompose.DateTime

def leadingDigits (width : Nat) (cs : List Char) : List Char :=
  (cs.take width).takeWhile Char.isDigit

def number? (width : Nat) (cs : List Char) : Option (Nat × List Char) :=
  let rest := dropBlank cs
  let digits := leadingDigits width rest
  (natural? digits).map fun n => (n, rest.drop digits.length)

/-- A year: four digits at most, or a sign and any number of digits. -/
def year? (cs : List Char) : Option (Int × List Char) :=
  match dropBlank cs with
  | '-' :: rest =>
    let digits := rest.takeWhile Char.isDigit
    (natural? digits).map fun n => (-Int.ofNat n, rest.drop digits.length)
  | '+' :: rest =>
    let digits := rest.takeWhile Char.isDigit
    (natural? digits).map fun n => (Int.ofNat n, rest.drop digits.length)
  | rest => (number? 4 rest).map fun (n, r) => (Int.ofNat n, r)

/-- A separator, white space before it skipped. -/
def separator? (c : Char) (cs : List Char) : Option (List Char) :=
  match dropBlank cs with
  | d :: rest => if d = c then some rest else none
  | [] => none

/-- Nanoseconds after a point: nine digits count and the others are skipped. -/
def fraction? (cs : List Char) : Option (Nat × List Char) :=
  match cs with
  | '.' :: rest =>
    let digits := leadingDigits 9 rest
    (natural? digits).map fun n =>
      (n * tenPow (9 - digits.length), (rest.drop digits.length).dropWhile Char.isDigit)
  | _ => some (0, cs)

/-- Whether the parts name a day of the calendar, in the years that can be represented. -/
def validDate (year : Int) (month day : Nat) : Bool :=
  -262143 ≤ year && year ≤ 262142 && 1 ≤ month && month ≤ 12 && 1 ≤ day &&
    day ≤ daysInMonth year month

def parse? (s : String) : Option DateTime := do
  let (year, cs) ← year? s.toList
  let (month, cs) ← number? 2 (← separator? '-' cs)
  let (day, cs) ← number? 2 (← separator? '-' cs)
  let (hour, cs) ← number? 2 (← separator? 'T' cs)
  let (minute, cs) ← number? 2 (← separator? ':' cs)
  let (second, cs) ← number? 2 (← separator? ':' cs)
  let (nano, cs) ← fraction? cs
  if (dropBlank cs).isEmpty ∧ validDate year month day ∧ hour ≤ 23 ∧ minute ≤ 59 ∧ second ≤ 60 then
    some (if second = 60 then ⟨year, month, day, hour, minute, 59, nano + 1000000000⟩
      else ⟨year, month, day, hour, minute, second, nano⟩)
  else none

example : (parse? "2024-02-29T01:02:03.004").map text = some "2024-02-29 01:02:03.004" := by
  decide +kernel
example : parse? "2023-02-29T00:00:00" = none := by decide +kernel

end SqlCompose.DateTime
