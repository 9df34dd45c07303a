/-
White space, by the Unicode property of that name.

A clause counts as empty when it holds white space only, whatever script the
spaces come from, so the test is by the property and not by ASCII.
-/

namespace SqlCompose

/-- The code points with the Unicode property White_Space. -/
def isBlankChar (c : Char) : Bool :=
  let n := c.toNat
  (0x09 ≤ n && n ≤ 0x0D) || n == 0x20 || n == 0x85 || n == 0xA0 || n == 0x1680 ||
    (0x2000 ≤ n && n ≤ 0x200A) || n == 0x2028 || n == 0x2029 || n == 0x202F || n == 0x205F ||
    n == 0x3000

def isBlank (s : String) : Bool := s.toList.all isBlankChar

@[simp] theorem isBlank_empty : isBlank "" = true := rfl

theorem isBlank_append (s t : String) : isBlank (s ++ t) = (isBlank s && isBlank t) := by
  simp [isBlank, String.toList_append]

def dropBlank (cs : List Char) : List Char := cs.dropWhile isBlankChar

end SqlCompose
