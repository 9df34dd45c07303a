/-
What JSON numbers mean. A number without point and exponent is an integer if it
fits a word of 64 bits; minus zero is not one. As a double it is its first digits,
as many as fit a word, times or divided by a power of ten: two roundings, and no
double when the result is too large.
-/
import SqlCompose.Json

namespace SqlCompose.Numeral

def valueOf (digits : List Nat) : Nat := digits.foldl (fun acc d => acc * 10 + d) 0

def int? (n : Numeral) : Option Int :=
  if n.fraction.isEmpty ∧ n.exponent.isNone then
    let v := valueOf n.whole
    if n.negative then (if 0 < v ∧ v ≤ UInt64.size / 2 then some (-Int.ofNat v) else none)
    else if v < UInt64.size then some (Int.ofNat v) else none
  else none

/-- Digits before the point that fit, and how many do not. -/
def absorbWhole : List Nat → Nat → Nat × Nat
  | [], m => (m, 0)
  | d :: rest, m =>
    if m * 10 + d < UInt64.size then absorbWhole rest (m * 10 + d) else (m, rest.length + 1)

/-- Digits after the point that fit, each one taking the exponent down. -/
def absorbFraction : List Nat → Nat → Int → Nat × Int
  | [], m, e => (m, e)
  | d :: rest, m, e =>
    if m * 10 + d < UInt64.size then absorbFraction rest (m * 10 + d) (e - 1) else (m, e)

/-- `x · 10 ^ e`; powers beyond 308 are divided off in steps. -/
def scaled : Nat → Float → Int → Option Float
  | 0, x, _ => some x
  | fuel + 1, x, e =>
    if e.natAbs ≤ 308 then
      if 0 ≤ e then
        let y := x * Float.ofScientific 1 false e.toNat
        if y.isInf then none else some y
      else some (x / Float.ofScientific 1 false e.natAbs)
    else if x == 0 then some x
    else if 0 ≤ e then none
    else scaled fuel (x / Float.ofScientific 1 false 308) (e + 308)

/-- The size of the double, sign aside. -/
def magnitude? (n : Numeral) : Option Float :=
  let (m, skipped) := absorbWhole n.whole 0
  let (m, e) := absorbFraction n.fraction m (Int.ofNat skipped)
  let x := (UInt64.ofNat m).toFloat
  match n.exponent with
  | none => scaled 8 x e
  | some (down, digits) =>
    let p := valueOf digits
    if p < UInt32.size / 2 then scaled 8 x (if down then e - Int.ofNat p else e + Int.ofNat p)
    else if m = 0 ∨ down then some 0
    else none

def float? (n : Numeral) : Option Float :=
  n.magnitude?.map fun x => if n.negative then -x else x

end SqlCompose.Numeral
