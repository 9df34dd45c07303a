/-
Exact decimals: a sign, a mantissa below `2 ^ 96` and a scale, the number of
digits after the point, of at most 28. The scale is part of the value: `1.50`
and `1.5` are written differently and compare equal. Only negation gives a zero a
sign.
-/
import SqlCompose.Number.Power

namespace SqlCompose

def Decimal.maxMantissa : Nat := 79228162514264337593543950335

def Decimal.maxScale : Nat := 28

/-- `± mantissa / 10 ^ scale`. -/
structure Decimal where
  negative : Bool
  mantissa : Nat
  scale : Nat
  mantissa_le : mantissa ≤ Decimal.maxMantissa
  scale_le : scale ≤ Decimal.maxScale
  deriving DecidableEq, Repr

namespace Decimal

def ofParts? (negative : Bool) (mantissa scale : Nat) : Option Decimal :=
  if h : mantissa ≤ maxMantissa ∧ scale ≤ maxScale then
    some ⟨negative, mantissa, scale, h.1, h.2⟩
  else none

/-- A decimal that was read or computed, if its parts are in range: a zero has no sign. -/
def ofResult? (negative : Bool) (mantissa scale : Nat) : Option Decimal :=
  ofParts? (negative && mantissa != 0) mantissa scale

def zero : Decimal := ⟨false, 0, 0, by decide, by decide⟩

def isZero (d : Decimal) : Bool := d.mantissa == 0

/-- Every 64-bit integer is a decimal without places. -/
def ofInt64 (n : Int64) : Decimal :=
  (ofParts? (decide (n.toInt < 0)) n.toInt.natAbs 0).getD zero

def neg (d : Decimal) : Decimal := { d with negative := !d.negative }

/-- The value times `10 ^ scale`, with its sign. -/
def signedAt (d : Decimal) (scale : Nat) : Int :=
  let m := Int.ofNat (d.mantissa * tenPow (scale - d.scale))
  if d.negative then -m else m

/-- Order by value; places and the sign of a zero do not count. -/
def compare (a b : Decimal) : Ordering :=
  let s := max a.scale b.scale
  Ord.compare (a.signedAt s) (b.signedAt s)

/-- All digits of the scale are written, and at least one before the point. -/
def text (d : Decimal) : String :=
  let digits := d.mantissa.repr.toList
  let padded := List.replicate (d.scale + 1 - digits.length) '0' ++ digits
  let whole := padded.take (padded.length - d.scale)
  let body := if d.scale = 0 then whole else whole ++ '.' :: padded.drop (padded.length - d.scale)
  (if d.negative then "-" else "") ++ String.ofList body

end Decimal

end SqlCompose
