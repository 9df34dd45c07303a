/-
The remainder of decimals, at the wider scale and with the sign of the dividend.

A divisor of more than 64 bits is divided by in words of 32 bits, the most
significant word of the dividend first. Each digit of the quotient is estimated
from the divisor's leading word. An estimate that is too large is put right, but a
digit is one word: an estimate that needs more wraps to zero, and what it should have
taken away is carried into the later digits and the result. This happens when a
partial remainder starts with the same word as the divisor.
-/
import SqlCompose.Number.Decimal

namespace SqlCompose.Decimal

/-- What is left of `t` after one digit of the quotient by `divisor`, whose leading word is at the
place of `2 ^ 64`. -/
def partialRemainder (divisor t : Nat) : Nat :=
  let place := twoPow 64
  let lead := divisor / place
  let high := t / place
  let digit := high / lead % twoPow 32
  let left := Int.ofNat (high % lead * place + t % place) - Int.ofNat (digit * (divisor % place))
  if left < 0 then (left % Int.ofNat divisor).toNat else left.toNat

def wordsOf (count n : Nat) : List Nat :=
  (List.range count).reverse.map fun i => n / twoPow (32 * i) % twoPow 32

/-- The remainder by a divisor of more than 64 bits. Both numbers are moved up until the divisor
fills its 96 bits, and the remainder is moved back; seven words hold every dividend. -/
def wideRemainder (x y : Nat) : Nat :=
  let shift := twoPow (95 - y.log2)
  let step := fun r w => partialRemainder (y * shift) (r * twoPow 32 + w)
  (wordsOf 7 (x * shift)).foldl step 0 / shift

/-- The remainder: nothing for a divisor of zero, zero without places for a zero or an equal, and
the dividend as it is when it is the smaller one. -/
def rem (a b : Decimal) : Option Decimal :=
  if b.isZero then none
  else if a.isZero then some zero
  else
    let s := max a.scale b.scale
    let x := a.mantissa * tenPow (s - a.scale)
    let y := b.mantissa * tenPow (s - b.scale)
    if x = y then some zero
    else if x < y then some a
    else ofResult? a.negative (if y < twoPow 64 then x % y else wideRemainder x y) s

example : wideRemainder (tenPow 40) (tenPow 20 + 7) = tenPow 40 % (tenPow 20 + 7) := by
  decide +kernel

end SqlCompose.Decimal
