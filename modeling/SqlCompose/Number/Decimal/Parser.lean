/-
Reading decimals. Plain texts are a sign, digits with at most one point, and
underscores after the first digit; places that do not fit are rounded on the
first of them, half away from zero, and the others do not count. An underscore in
the first of these places counts as a zero after a small mantissa, and is passed
over after a wide one. Scientific texts are a plain text, `e` and an exponent of at
most 28 either way: a positive one has to leave the mantissa in range, a negative
one rounds what has no place.
-/
import SqlCompose.Number.Decimal

namespace SqlCompose

def digitValue? (c : Char) : Option Nat :=
  if '0' ≤ c ∧ c ≤ '9' then some (c.toNat - '0'.toNat) else none

def natural? (cs : List Char) : Option Nat :=
  if cs.isEmpty then none
  else cs.foldlM (fun acc c => (digitValue? c).map (acc * 10 + ·)) 0

namespace Decimal

structure Reading where
  mantissa : Nat
  scale : Nat
  pointSeen : Bool
  digitSeen : Bool

/-- Whether a mantissa had come close to outgrowing a word of 64 bits before its last digit: within
255 of the largest number that any further digit can follow. -/
def isWide (mantissa : Nat) : Bool := UInt64.size / 10 - 255 ≤ mantissa / 10

/-- The digit on which the places that do not fit are rounded. -/
def roundingDigit (mantissa : Nat) (places : List Char) : Nat :=
  let places := if isWide mantissa then places.filter (· != '_') else places
  (places.head?.bind digitValue?).getD 0

/-- Closes a reading when the places that are left, digits and underscores to the end, do not
fit. -/
def roundOff (negative : Bool) (x : Reading) (places : List Char) : Option Decimal :=
  if places.all fun c => (digitValue? c).isSome || c == '_' then
    if roundingDigit x.mantissa places < 5 then ofResult? negative x.mantissa x.scale
    else if x.mantissa + 1 ≤ maxMantissa then ofResult? negative (x.mantissa + 1) x.scale
    else if x.scale = 0 then none
    else ofResult? negative ((x.mantissa + 5) / 10) (x.scale - 1)
  else none

/-- Reads digits, one point and underscores to the end. -/
def readDigits (negative : Bool) : Reading → List Char → Option Decimal
  | x, [] => if x.digitSeen then ofResult? negative x.mantissa x.scale else none
  | x, c :: rest =>
    if x.pointSeen ∧ maxScale ≤ x.scale then roundOff negative x (c :: rest)
    else match digitValue? c with
      | some d =>
        let m := x.mantissa * 10 + d
        if m ≤ maxMantissa then
          readDigits negative ⟨m, if x.pointSeen then x.scale + 1 else 0, x.pointSeen, true⟩ rest
        else if x.pointSeen then roundOff negative x (c :: rest)
        else none
      | none =>
        if c = '.' ∧ ¬ x.pointSeen then readDigits negative { x with pointSeen := true } rest
        else if c = '_' ∧ x.digitSeen then readDigits negative x rest
        else none

def parsePlain? (cs : List Char) : Option Decimal :=
  let start : Reading := ⟨0, 0, false, false⟩
  match cs with
  | '-' :: rest => readDigits true start rest
  | '+' :: rest => readDigits false start rest
  | _ => readDigits false start cs

def exponent? (cs : List Char) : Option Nat :=
  let digits := match cs with
    | '+' :: rest => rest
    | _ => cs
  (natural? digits).filter (· < UInt32.size)

/-- `d / 10 ^ e`. The places beyond the last are rounded off, half away from zero; what rounds to
zero keeps its sign. -/
def scaleDown? (d : Decimal) (e : Nat) : Option Decimal :=
  let lost := d.scale + e - maxScale
  ofParts? d.negative ((d.mantissa + tenPow lost / 2) / tenPow lost) (d.scale + e - lost)

/-- `d · 10 ^ e`: places are taken away first, then the mantissa is widened. -/
def scaleUp? (d : Decimal) (e : Nat) : Option Decimal :=
  ofParts? d.negative (d.mantissa * tenPow (e - d.scale)) (d.scale - e)

def parseScientific? (cs : List Char) : Option Decimal :=
  let isMark := fun c => c == 'e' || c == 'E'
  match cs.dropWhile (!isMark ·) with
  | [] => none
  | _ :: power => do
    let base ← parsePlain? (cs.takeWhile (!isMark ·))
    match power with
    | '-' :: digits =>
      let e ← exponent? digits
      if e ≤ maxScale then scaleDown? base e else none
    | _ =>
      let e ← exponent? power
      if e ≤ maxScale then scaleUp? base e else none

def parse? (s : String) : Option Decimal :=
  (parsePlain? s.toList).orElse fun _ => parseScientific? s.toList

example : (parse? "-12.50").map text = some "-12.50" := by decide +kernel
example : (parse? "1.5E3").map text = some "1500" := by decide +kernel
example : (parse? "1.25E-28").map text = some "0.0000000000000000000000000001" := by decide +kernel
example : parse? "1e" = none := by decide +kernel

end Decimal

end SqlCompose
