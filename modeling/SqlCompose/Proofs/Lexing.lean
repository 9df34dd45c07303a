/-
Reading texts from the left: digits, fixed texts, names between quotes and bare names.

A reader gets the characters and answers what it read with what is left. Between
quotes, the closing quote written twice stands for one, so reading undoes
`enclose`, whatever the name (`readQuoted_doubling`).
-/
import Mathlib.Data.List.Basic
import SqlCompose.Text.Quote

namespace SqlCompose

/-! ## Numbers -/

theorem isDigit_of_mem_repr {n : Nat} {c : Char} (hc : c ∈ n.repr.toList) : c.isDigit = true := by
  rw [Nat.toList_repr] at hc
  exact Nat.isDigit_of_mem_toDigits (by decide) (by decide) hc

/-! ## Fixed texts -/

/-- What is left after a fixed text. -/
def strip? : List Char → List Char → Option (List Char)
  | [], cs => some cs
  | a :: text, c :: cs => if a = c then strip? text cs else none
  | _ :: _, [] => none

@[simp] theorem strip?_append (text rest : List Char) : strip? text (text ++ rest) = some rest := by
  induction text with
  | nil => rfl
  | cons a text ih => simp [strip?, ih]

/-- What stands before the closing quote, two of which stand for one, and what is left. -/
def readQuoted (q : Char) : List Char → Option (List Char × List Char)
  | [] => none
  | [c] => if c = q then some ([], []) else none
  | c :: d :: rest =>
    if c = q then
      if d = q then (readQuoted q rest).map fun x => (q :: x.1, x.2) else some ([], d :: rest)
    else (readQuoted q (d :: rest)).map fun x => (c :: x.1, x.2)

theorem readQuoted_cons_of_ne {q c : Char} (h : c ≠ q) (rest : List Char) :
    readQuoted q (c :: rest) = (readQuoted q rest).map fun x => (c :: x.1, x.2) := by
  cases rest <;> simp [readQuoted, h]

/-- Reading undoes doubling, if what follows does not start with another quote. -/
theorem readQuoted_doubling {q : Char} {rest : List Char} (hrest : rest.head? ≠ some q) :
    ∀ s : List Char, readQuoted q (doubling q s ++ q :: rest) = some (s, rest)
  | [] => by
    cases rest with
    | nil => simp [doubling, readQuoted]
    | cons d rest =>
      have hd : d ≠ q := by simpa using hrest
      simp [doubling, readQuoted, hd]
  | c :: s => by
    have ih := readQuoted_doubling hrest s
    by_cases hc : c = q
    · simp [doubling, hc, readQuoted, ih]
    · simp [doubling, hc, readQuoted_cons_of_ne hc, ih]

/-! ## Bare names -/

/-- Letters, digits and underscores. Beyond ASCII every character counts as a letter. -/
def isNameChar (c : Char) : Bool := c.isAlphanum || c == '_' || 128 ≤ c.toNat

def isBareName (s : String) : Bool := s != "" && s.toList.all isNameChar

section Words

variable {word rest : List Char}

end Words

end SqlCompose
