/-
Sums, products and quotients of decimals. Results keep as many places as fit:
when the exact result is too wide, the fewest trailing digits are rounded off, half
to even, and the operation has no result when even the whole part is too wide. A
zero operand is special: adding it hands back the other operand with its own places.
-/
import SqlCompose.Number.Decimal

namespace SqlCompose.Decimal

/-- `m / 10 ^ k` to the nearest integer, half to even. -/
def roundHalfEven (m k : Nat) : Nat :=
  let p := tenPow k
  let q := m / p
  let r := m % p
  if 2 * r > p ∨ (2 * r = p ∧ q % 2 = 1) then q + 1 else q

/-- `± m / 10 ^ s` with the fewest trailing digits rounded off such that it is in range. -/
def fit (negative : Bool) (m s : Nat) : Option Decimal :=
  (List.range (s + 1)).findSome? fun k =>
    if s ≤ k + maxScale then ofResult? negative (roundHalfEven m k) (s - k) else none

def addExact (a b : Decimal) : Option Decimal :=
  let s := max a.scale b.scale
  let total := a.signedAt s + b.signedAt s
  fit (decide (total < 0)) total.natAbs s

def add (a b : Decimal) : Option Decimal :=
  if a.isZero then some b else if b.isZero then some a else addExact a b

def sub (a b : Decimal) : Option Decimal :=
  if a.isZero then some (if b.isZero then b else b.neg)
  else if b.isZero then some a
  else addExact a b.neg

/-- The product of two mantissas of one word with more than 47 places in all lies below half of the
last place; it is zero without places. -/
def mul (a b : Decimal) : Option Decimal :=
  let small := a.mantissa < UInt32.size && b.mantissa < UInt32.size
  if a.isZero || b.isZero || (small && 47 < a.scale + b.scale) then some zero
  else fit (a.negative != b.negative) (a.mantissa * b.mantissa) (a.scale + b.scale)

/-- The largest number of places, at most `limit`, by which `q` can be widened. -/
def widening (q : Nat) : Nat → Nat
  | 0 => 0
  | limit + 1 => if q * tenPow (limit + 1) ≤ maxMantissa then limit + 1 else widening q limit

/-- A quotient in the making: `quotient / 10 ^ scale` with a remainder still to divide, and whether
digits beyond the exact part were sought. -/
structure Quotient where
  quotient : Nat
  scale : Int
  remainder : Nat
  sought : Bool

/-- What a round of long division does: it stops, or adds some digits. -/
inductive Round where
  | stop (answer : Option Quotient)
  | extend (digits : Nat) (sought : Bool)

/-- A quotient that has just grown beyond the largest mantissa gives its last digit up, half to
even; what is left of the division counts as more than nothing. -/
def Quotient.narrow (x : Quotient) : Option Quotient :=
  let digit := x.quotient % 10
  let kept := x.quotient / 10
  let up := 5 < digit ∨ (digit = 5 ∧ (x.remainder ≠ 0 ∨ kept % 2 = 1))
  if 0 < x.scale then
    some { x with quotient := if up then kept + 1 else kept, scale := x.scale - 1 }
  else none

/-- With nothing left the division stops once no place is missing; otherwise up to nine digits are
added, as many as fit, and when none fits the last digit is rounded half to even. -/
def nextRound (divisor : Nat) (x : Quotient) : Round :=
  if x.remainder = 0 then
    if 0 ≤ x.scale then .stop (some x) else .extend (min 9 (-x.scale).toNat) x.sought
  else
    let p := widening x.quotient (min 9 (28 - x.scale).toNat)
    if p ≠ 0 then .extend p true
    else if x.scale < 0 then .stop none
    else
      let up := 2 * x.remainder > divisor ∨ (2 * x.remainder = divisor ∧ x.quotient % 2 = 1)
      let rounded := { x with quotient := if up then x.quotient + 1 else x.quotient, sought := true }
      .stop (if rounded.quotient ≤ maxMantissa then some rounded else rounded.narrow)

/-- Long division, a round at a time; a round adds at least one place, so 64 rounds are more than
the scales leave room for. -/
def longDivision (divisor : Nat) : Nat → Quotient → Option Quotient
  | 0, _ => none
  | rounds + 1, x =>
    match nextRound divisor x with
    | .stop answer => answer
    | .extend p sought =>
      if x.quotient * tenPow p ≤ maxMantissa then
        let next : Quotient :=
          { quotient := x.quotient * tenPow p + x.remainder * tenPow p / divisor
            scale := x.scale + Int.ofNat p
            remainder := x.remainder * tenPow p % divisor
            sought := sought }
        if next.quotient ≤ maxMantissa then longDivision divisor rounds next else next.narrow
      else none

/-- Drops eight trailing zeros at a time while the mantissa is a multiple of `2 ^ 32` too. -/
def stripEights : Nat → Nat → Nat → Nat × Nat
  | 0, q, s => (q, s)
  | fuel + 1, q, s =>
    if q % twoPow 32 = 0 ∧ 8 ≤ s ∧ q % tenPow 8 = 0 then stripEights fuel (q / tenPow 8) (s - 8)
    else (q, s)

/-- Drops `k` trailing zeros if the mantissa is a multiple of `2 ^ k` and of `10 ^ k`. -/
def stripOnce (k : Nat) (qs : Nat × Nat) : Nat × Nat :=
  if qs.1 % twoPow k = 0 ∧ k ≤ qs.2 ∧ qs.1 % tenPow k = 0 then (qs.1 / tenPow k, qs.2 - k) else qs

/-- Trailing zeros dropped from a quotient in groups of eight, four, two and one. Only a mantissa
that is a multiple of the matching power of two is looked at, so some zeros stay. -/
def stripQuotient (q s : Nat) : Nat × Nat :=
  stripOnce 1 (stripOnce 2 (stripOnce 4 (stripEights 4 q s)))

def div (a b : Decimal) : Option Decimal :=
  if b.isZero then none
  else if a.isZero then some zero
  else do
    let x ← longDivision b.mantissa 64
      { quotient := a.mantissa / b.mantissa
        scale := Int.ofNat a.scale - Int.ofNat b.scale
        remainder := a.mantissa % b.mantissa
        sought := false }
    let (m, places) :=
      if x.sought then stripQuotient x.quotient x.scale.toNat else (x.quotient, x.scale.toNat)
    ofResult? (a.negative != b.negative) m places

end SqlCompose.Decimal
