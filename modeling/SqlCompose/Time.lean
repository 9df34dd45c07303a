/-
Points in time without a zone, in the proleptic Gregorian calendar. A leap
second is second 59 with ten digits of nanoseconds.
-/

namespace SqlCompose

/-- A date and a time of day. `nano` reaches from `10 ^ 9` on only in a leap second, which is
inside second 59. -/
structure DateTime where
  year : Int
  month : Nat
  day : Nat
  hour : Nat
  minute : Nat
  second : Nat
  nano : Nat
  deriving DecidableEq, Repr

namespace DateTime

def compare (a b : DateTime) : Ordering :=
  (Ord.compare a.year b.year).then <| (Ord.compare a.month b.month).then <|
    (Ord.compare a.day b.day).then <| (Ord.compare a.hour b.hour).then <|
    (Ord.compare a.minute b.minute).then <| (Ord.compare a.second b.second).then <|
    Ord.compare a.nano b.nano

def padded (width n : Nat) : String :=
  let digits := n.repr
  String.ofList (List.replicate (width - digits.length) '0') ++ digits

/-- Four digits; a year before 0 or after 9999 shows its sign. -/
def yearText (y : Int) : String :=
  if 0 ≤ y ∧ y ≤ 9999 then padded 4 y.toNat
  else (if y < 0 then "-" else "+") ++ padded 4 y.natAbs

/-- Nothing for a whole second, else a point and 3, 6 or 9 digits, the fewest that are exact. -/
def fractionText (nano : Nat) : String :=
  if nano = 0 then ""
  else if nano % 1000000 = 0 then "." ++ padded 3 (nano / 1000000)
  else if nano % 1000 = 0 then "." ++ padded 6 (nano / 1000)
  else "." ++ padded 9 nano

def dateText (t : DateTime) : String :=
  yearText t.year ++ "-" ++ padded 2 t.month ++ "-" ++ padded 2 t.day

/-- A leap second shows as second 60. -/
def clockText (t : DateTime) : String :=
  padded 2 t.hour ++ ":" ++ padded 2 t.minute ++ ":" ++
    padded 2 (t.second + t.nano / 1000000000) ++ fractionText (t.nano % 1000000000)

def text (t : DateTime) : String := t.dateText ++ " " ++ t.clockText

def isoText (t : DateTime) : String := t.dateText ++ "T" ++ t.clockText

def isLeapYear (y : Int) : Bool := y % 4 == 0 && (y % 100 != 0 || y % 400 == 0)

def daysInMonth (y : Int) (month : Nat) : Nat :=
  match month with
  | 2 => if isLeapYear y then 29 else 28
  | 4 | 6 | 9 | 11 => 30
  | _ => 31

/-- The calendar date that many days after 1970-01-01. Years are counted from March, so that a leap
day is the last of its year, in eras of 400 years. -/
def civilOfDays (days : Int) : Int × Nat × Nat :=
  let z := days + 719468
  let era := z / 146097
  let dayOfEra := (z % 146097).toNat
  let yearOfEra := (dayOfEra - dayOfEra / 1460 + dayOfEra / 36524 - dayOfEra / 146096) / 365
  let dayOfYear := dayOfEra - (365 * yearOfEra + yearOfEra / 4 - yearOfEra / 100)
  let fromMarch := (5 * dayOfYear + 2) / 153
  let day := dayOfYear - (153 * fromMarch + 2) / 5 + 1
  let month := if fromMarch < 10 then fromMarch + 3 else fromMarch - 9
  let year := era * 400 + Int.ofNat yearOfEra + (if month ≤ 2 then 1 else 0)
  (year, month, day)

def ofDate (year : Int) (month day : Nat) : DateTime := ⟨year, month, day, 0, 0, 0, 0⟩

/-- Seconds and nanoseconds since 1970-01-01 00:00:00. -/
def ofUnix (seconds : Int) (nanos : Nat) : DateTime :=
  let (year, month, day) := civilOfDays (seconds / 86400)
  let clock := (seconds % 86400).toNat
  ⟨year, month, day, clock / 3600, clock / 60 % 60, clock % 60, nanos⟩

example : (ofUnix (-1) 500000000).text = "1969-12-31 23:59:59.500" := by decide +kernel
example : (ofUnix 951782400 0).text = "2000-02-29 00:00:00" := by decide +kernel
example : (DateTime.mk (-44) 3 15 23 59 59 1000000000).text = "-0044-03-15 23:59:60" := by
  decide +kernel

end DateTime

end SqlCompose
