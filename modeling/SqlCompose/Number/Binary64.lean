/-
Doubles by their parts: a finite double is `± significand · 2 ^ exponent` with a
significand below `2 ^ 53`. The remainder of a division is computed on the
parts, where it is exact.
-/
import SqlCompose.Number.Power

namespace SqlCompose

inductive Binary64 where
  | nan
  | infinite (negative : Bool)
  | finite (negative : Bool) (significand : Nat) (exponent : Int)
  deriving Repr, DecidableEq

namespace Binary64

/-- Sign, biased exponent and fraction of a 64-bit pattern. -/
def ofBits (bits : UInt64) : Binary64 :=
  let word := bits.toNat
  let negative := word / twoPow 63 == 1
  let biased := word / twoPow 52 % twoPow 11
  let fraction := word % twoPow 52
  if biased = 2047 then (if fraction = 0 then .infinite negative else .nan)
  else if biased = 0 then .finite negative fraction (-1074)
  else .finite negative (twoPow 52 + fraction) (Int.ofNat biased - 1075)

def ofFloat (x : Float) : Binary64 := ofBits x.toBits

/-- Doubles a significand until it has 53 bits or the least exponent is reached. -/
def normalize : Nat → Nat → Int → Nat × Int
  | 0, m, q => (m, q)
  | fuel + 1, m, q => if m < twoPow 52 ∧ -1074 < q then normalize fuel (2 * m) (q - 1) else (m, q)

/-- The pattern of a double; a significand below `2 ^ 53` and an exponent from `-1074` up to
`971` are written exactly. -/
def toBits : Binary64 → UInt64
  | nan => 0x7FF8000000000000
  | infinite negative => if negative then 0xFFF0000000000000 else 0x7FF0000000000000
  | finite negative significand exponent =>
    let (m, q) := normalize 53 significand exponent
    let magnitude := if m < twoPow 52 then m else (q + 1075).toNat * twoPow 52 + (m - twoPow 52)
    UInt64.ofNat ((if negative then twoPow 63 else 0) + magnitude)

def toFloat (x : Binary64) : Float := Float.ofBits x.toBits

/-- The remainder of the division rounded toward zero: the dividend's sign, the divisor's
multiple nearest to the dividend from zero taken off. It is exact. -/
def rem : Binary64 → Binary64 → Binary64
  | finite s m q, finite _ n p =>
    if n = 0 then nan
    else
      let unit := min q p
      finite s ((m * twoPow (q - unit).toNat) % (n * twoPow (p - unit).toNat)) unit
  | finite s m q, infinite _ => finite s m q
  | _, _ => nan

end Binary64

def floatRem (x y : Float) : Float := ((Binary64.ofFloat x).rem (Binary64.ofFloat y)).toFloat

end SqlCompose
