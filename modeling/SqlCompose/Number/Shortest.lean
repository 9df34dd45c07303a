/-
The fewest decimal digits that read back as a given double.

A double `m · 2 ^ q` stands for all reals nearer to it than to its neighbours,
the ends included when `m` is even. `shortest` looks for a decimal in that
interval, first with one digit, then with two, up to seventeen, which always
suffice. On each grid only the value's two neighbours can be in the interval
and nearest; of two hits the nearer wins, and an exact tie goes as `Tie` says.
-/
import SqlCompose.Number.Power

namespace SqlCompose

structure Scientific where
  digits : Nat
  exponent : Int
  deriving Repr, DecidableEq

/-- Which of two equally near decimals is taken. -/
inductive Tie where
  | up
  | even
  deriving Repr, DecidableEq

namespace Shortest

/-- `x · 2 ^ p` against `d · 10 ^ k`. -/
def compareScaled (x : Nat) (p : Int) (d : Nat) (k : Int) : Ordering :=
  compare (x * twoPow p.toNat * tenPow (-k).toNat) (d * tenPow k.toNat * twoPow (-p).toNat)

/-- The largest `d` with `d · 10 ^ k ≤ m · 2 ^ q`. -/
def floorOn (m : Nat) (q k : Int) : Nat :=
  (m * twoPow q.toNat * tenPow (-k).toNat) / (twoPow (-q).toNat * tenPow k.toNat)

/-- The exponent of the leading digit of `m · 2 ^ q`, for a double above zero. -/
def leadingExponent (m : Nat) (q : Int) : Int :=
  Int.ofNat (Nat.toDigits 10 (floorOn m q (-400))).length - 401

/-- Whether `d · 10 ^ k` reads back as the double `m · 2 ^ q`. In quarters of the last place the
interval reaches two up and two down, or one down where the spacing halves. -/
def readsBack (m : Nat) (q : Int) (d : Nat) (k : Int) : Bool :=
  let below := if m = twoPow 52 ∧ -1074 < q then 4 * m - 1 else 4 * m - 2
  let low := compareScaled below (q - 2) d k
  let high := compareScaled (4 * m + 2) (q - 2) d k
  (low == .lt || (m % 2 == 0 && low == .eq)) && (high == .gt || (m % 2 == 0 && high == .eq))

/-- The better of the two neighbours on the grid `10 ^ k`, if one reads back. -/
def onGrid (tie : Tie) (m : Nat) (q k : Int) : Option Scientific :=
  let d := floorOn m q k
  match readsBack m q d k, readsBack m q (d + 1) k with
  | false, false => none
  | true, false => some ⟨d, k⟩
  | false, true => some ⟨d + 1, k⟩
  | true, true =>
    match compareScaled (2 * m) q (2 * d + 1) k, tie with
    | .lt, _ => some ⟨d, k⟩
    | .gt, _ => some ⟨d + 1, k⟩
    | .eq, .up => some ⟨d + 1, k⟩
    | .eq, .even => if d % 2 = 0 then some ⟨d, k⟩ else some ⟨d + 1, k⟩

/-- Moves trailing zeros from the digits into the exponent. -/
def stripZeros : Nat → Scientific → Scientific
  | 0, s => s
  | fuel + 1, s =>
    if s.digits % 10 = 0 ∧ s.digits ≠ 0 then stripZeros fuel ⟨s.digits / 10, s.exponent + 1⟩ else s

end Shortest

open Shortest in
/-- The fewest digits for `m · 2 ^ q`, a double above zero. -/
def shortest (tie : Tie) (m : Nat) (q : Int) : Scientific :=
  let e := leadingExponent m q
  let found := (List.range 17).findSome? fun n => onGrid tie m q (e - Int.ofNat n)
  stripZeros 20 (found.getD ⟨floorOn m q (e - 16), e - 16⟩)

end SqlCompose
