/-
Quoting by doubling: a text stands between two quote characters, and the
closing one is written twice wherever it occurs inside. Identifiers and string
literals of every engine here are quoted this way; only the quote characters
differ.
-/

namespace SqlCompose

/-- Writes every `q` twice and everything else once. -/
def doubling (q : Char) : List Char → List Char
  | [] => []
  | c :: rest => if c = q then q :: q :: doubling q rest else c :: doubling q rest

/-- `s` between `opening` and `closing`, with `closing` doubled inside. -/
def enclose (opening closing : Char) (s : String) : String :=
  String.ofList (opening :: (doubling closing s.toList ++ [closing]))

def apostrophe : Char := '\x27'

def backtick : Char := '\x60'

/-- A string literal: apostrophes around, those inside doubled. -/
def quoteLiteral (s : String) : String := enclose apostrophe apostrophe s

@[simp] theorem doubling_nil (q : Char) : doubling q [] = [] := rfl

theorem doubling_append (q : Char) (s t : List Char) :
    doubling q (s ++ t) = doubling q s ++ doubling q t := by
  induction s with
  | nil => rfl
  | cons c s ih => by_cases h : c = q <;> simp [doubling, h, ih]

theorem head?_doubling (q : Char) (s : List Char) : (doubling q s).head? = s.head? := by
  cases s with
  | nil => rfl
  | cons c s =>
    rw [doubling]
    split
    · next hc => rw [hc, List.head?_cons, List.head?_cons]
    · rfl

theorem toList_enclose (opening closing : Char) (s : String) :
    (enclose opening closing s).toList = opening :: (doubling closing s.toList ++ [closing]) := by
  simp [enclose]

end SqlCompose
