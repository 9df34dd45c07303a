/-
How the digits of a double are set out. `shortest` gives the digits; a
`FloatLayout` decides between positional and exponent notation, whether a whole
number shows `.0`, and which way a tie between two digits goes.
-/
import SqlCompose.Number.Binary64
import SqlCompose.Number.Shortest

namespace SqlCompose

/-- A way to write doubles. -/
structure FloatLayout where
  /-- Exponents of the leading digit that are written positionally. -/
  positional : Int → Bool
  /-- A whole number ends in `.0`. -/
  pointZero : Bool
  tie : Tie
  nan : String
  infinity : String

namespace FloatLayout

def zeros (n : Nat) : List Char := List.replicate n '0'

def setPositional (pointZero : Bool) (digits : List Char) (lead : Int) : List Char :=
  if lead < 0 then '0' :: '.' :: (zeros (-lead - 1).toNat ++ digits)
  else
    let whole := lead.toNat + 1
    if digits.length ≤ whole then
      digits ++ zeros (whole - digits.length) ++ (if pointZero then ['.', '0'] else [])
    else digits.take whole ++ '.' :: digits.drop whole

/-- One digit, the others after a point, and a signed exponent. -/
def setExponent (digits : List Char) (lead : Int) : List Char :=
  let mantissa := match digits with
    | d :: e :: rest => d :: '.' :: e :: rest
    | _ => digits
  mantissa ++ 'e' :: (if lead < 0 then '-' else '+') :: lead.natAbs.repr.toList

def render (layout : FloatLayout) (x : Float) : String :=
  match Binary64.ofFloat x with
  | .nan => layout.nan
  | .infinite negative => (if negative then "-" else "") ++ layout.infinity
  | .finite negative m q =>
    let body :=
      if m = 0 then setPositional layout.pointZero ['0'] 0
      else
        let s := shortest layout.tie m q
        let digits := s.digits.repr.toList
        let lead := s.exponent + Int.ofNat digits.length - 1
        if layout.positional lead then setPositional layout.pointZero digits lead
        else setExponent digits lead
    (if negative then "-" else "") ++ String.ofList body

end FloatLayout

end SqlCompose
