/-
Values that are one word: truth values, integers, floats, and points in time.
Underscores may stand between digits. Integers have 64 bits. Floats and times are
checked and kept as written.
-/
import SqlCompose.Number.Decimal.Parser
import SqlCompose.Number.Word
import SqlCompose.Text.Hex
import SqlCompose.Time
import SqlCompose.Toml

namespace SqlCompose.Toml

/-- Digits without the underscores between them; each underscore needs a digit on either side. -/
def ungroup (isDigit : Char → Bool) : List Char → Option (List Char)
  | [] => none
  | [c] => if isDigit c then some [c] else none
  | c :: '_' :: rest => if isDigit c then (ungroup isDigit rest).map (c :: ·) else none
  | c :: rest => if isDigit c then (ungroup isDigit rest).map (c :: ·) else none

def wholeDigits? (cs : List Char) : Option (List Char) :=
  (ungroup Char.isDigit cs).filter fun ds => ds.length = 1 || ds.head? != some '0'

def signed (cs : List Char) : Bool × List Char :=
  match cs with
  | '-' :: rest => (true, rest)
  | '+' :: rest => (false, rest)
  | _ => (false, cs)

def inBase (base : Nat) (cs : List Char) : Option Nat :=
  (ungroup (fun c => (hexValue? c).any (· < base)) cs).map fun ds =>
    ds.foldl (fun acc c => acc * base + (hexValue? c).getD 0) 0

/-- A decimal integer with an optional sign, or one in base 16, 8 or 2 after its mark. -/
def integer? (cs : List Char) : Option Int64 :=
  match cs with
  | '0' :: 'x' :: digits => (inBase 16 digits).bind fun n => int64? (Int.ofNat n)
  | '0' :: 'o' :: digits => (inBase 8 digits).bind fun n => int64? (Int.ofNat n)
  | '0' :: 'b' :: digits => (inBase 2 digits).bind fun n => int64? (Int.ofNat n)
  | _ =>
    let (negative, digits) := signed cs
    ((wholeDigits? digits).bind natural?).bind fun n =>
      int64? (if negative then -Int.ofNat n else Int.ofNat n)

/-- Whether `m · 10 ^ e` is beyond the doubles: at least half a step above the largest. -/
def overflows (m : Nat) (e : Int) : Bool :=
  if m = 0 then false
  else
    let lead := Int.ofNat m.repr.length + e
    if lead < 300 then false
    else if 310 < lead then true
    else twoPow 1024 - twoPow 970 ≤ m * tenPow e.toNat / tenPow (-e).toNat

/-- Whether a word is a float: digits with a fraction, an exponent or both, or a special one. -/
def isFloat (cs : List Char) : Bool :=
  let (negative, body) := signed cs
  if body = "inf".toList ∨ body = "nan".toList then true
  else
    let isGroup := fun c : Char => c.isDigit || c == '_'
    let whole := body.takeWhile isGroup
    let rest := body.drop whole.length
    let (fraction, rest) := match rest with
      | '.' :: more => (some (more.takeWhile isGroup), more.dropWhile isGroup)
      | _ => (none, rest)
    let power? := match rest with
      | [] => if fraction.isSome then some 0 else none
      | mark :: more =>
        if mark = 'e' ∨ mark = 'E' then
          let (down, digits) := signed more
          ((ungroup Char.isDigit digits).bind natural?).map fun n =>
            if down then -Int.ofNat n else Int.ofNat n
        else none
    let fraction? := match fraction with
      | none => some []
      | some ds => ungroup Char.isDigit ds
    match wholeDigits? whole, fraction?, power? with
    | some w, some f, some e =>
      negative || !overflows ((natural? (w ++ f)).getD 0) (e - Int.ofNat f.length)
    | _, _, _ => false

def twoDigits? (low high : Nat) (a b : Char) : Option Nat :=
  (natural? [a, b]).filter fun n => low ≤ n && n ≤ high

def afterDate? : List Char → Option (List Char)
  | y1 :: y2 :: y3 :: y4 :: '-' :: m1 :: m2 :: '-' :: d1 :: d2 :: rest => do
    let year ← natural? [y1, y2, y3, y4]
    let month ← twoDigits? 1 12 m1 m2
    let _ ← twoDigits? 1 (DateTime.daysInMonth (Int.ofNat year) month) d1 d2
    return rest
  | _ => none

/-- A time of day with seconds and an optional fraction. -/
def afterTime? : List Char → Option (List Char)
  | h1 :: h2 :: ':' :: m1 :: m2 :: ':' :: s1 :: s2 :: rest => do
    let _ ← twoDigits? 0 23 h1 h2
    let _ ← twoDigits? 0 59 m1 m2
    let _ ← twoDigits? 0 60 s1 s2
    match rest with
    | '.' :: more =>
      if (more.takeWhile Char.isDigit).isEmpty then none else some (more.dropWhile Char.isDigit)
    | _ => some rest
  | _ => none

/-- Whether a text is an offset from universal time, or nothing. -/
def isOffset : List Char → Bool
  | [] | ['Z'] | ['z'] => true
  | [sign, h1, h2, ':', m1, m2] =>
    (sign == '+' || sign == '-') && (twoDigits? 0 23 h1 h2).isSome && (twoDigits? 0 59 m1 m2).isSome
  | _ => false

def isTime (cs : List Char) : Bool :=
  match afterDate? cs with
  | some [] => true
  | some (mark :: rest) => (mark == 'T' || mark == 't' || mark == ' ') && (afterTime? rest).any isOffset
  | none => (afterTime? cs).any List.isEmpty

def scalar? (cs : List Char) : Option Toml :=
  if cs = "true".toList then some (bool true)
  else if cs = "false".toList then some (bool false)
  else match integer? cs with
    | some n => some (integer n)
    | none =>
      if isFloat cs then some (float (String.ofList cs))
      else if isTime cs then some (time (String.ofList cs))
      else none

def isWordChar (c : Char) : Bool :=
  c.isAlphanum || c == '+' || c == '-' || c == '.' || c == ':' || c == '_'

/-- The word at the front. A blank after a date belongs to it when a digit follows. -/
def takeWord (cs : List Char) : List Char × List Char :=
  let word := cs.takeWhile isWordChar
  let rest := cs.drop word.length
  match afterDate? word, rest with
  | some [], ' ' :: d :: more =>
    if d.isDigit then
      let clock := (d :: more).takeWhile isWordChar
      (word ++ ' ' :: clock, (d :: more).drop clock.length)
    else (word, rest)
  | _, _ => (word, rest)

end SqlCompose.Toml
