/-
Globally unique identifiers: 128 bits, written as lower-case hexadecimal digits
in groups of 8, 4, 4, 4 and 12.
-/
import SqlCompose.Text.Hex

namespace SqlCompose

structure Guid where
  bits : BitVec 128
  deriving DecidableEq, Repr

namespace Guid

/-- Order of the bits as one number, which is the order of the bytes. -/
def compare (a b : Guid) : Ordering := Ord.compare a.bits.toNat b.bits.toNat

def text (g : Guid) : String :=
  let d := hexDigits 32 g.bits.toNat
  String.ofList (d.take 8 ++ '-' :: (d.drop 8).take 4 ++ '-' :: (d.drop 12).take 4 ++
    '-' :: (d.drop 16).take 4 ++ '-' :: d.drop 20)

def ofDigits? (cs : List Char) : Option Guid :=
  if cs.length = 32 then (hexNumber? cs).map fun n => ⟨BitVec.ofNat 128 n⟩ else none

/-- Reads the hyphenated form: 36 characters with hyphens after 8, 13, 18 and 23. -/
def ofHyphenated? (cs : List Char) : Option Guid :=
  let hyphens := [8, 13, 18, 23]
  if cs.length = 36 ∧ hyphens.all (cs[·]? == some '-') then
    ofDigits? (((cs.zipIdx).filter fun p => !hyphens.contains p.2).map (·.1))
  else none

/-- What stands before an identifier that is written as a name, in letters of either case. -/
def nameMark : List Char := "urn:uuid:".toList

/-- Reads 32 digits, or the hyphenated form, alone, in braces or after the mark of a name. -/
def parse? (s : String) : Option Guid :=
  let cs := s.toList
  if cs.length = 32 then ofDigits? cs
  else if cs.length = 36 then ofHyphenated? cs
  else if cs.length = 38 ∧ cs.head? = some '\x7b' ∧ cs.getLast? = some '\x7d' then
    ofHyphenated? (cs.tail.take 36)
  else if cs.length = 45 ∧ (cs.take 9).map Char.toLower = nameMark then ofHyphenated? (cs.drop 9)
  else none

example : (parse? "67E55044-10b1-426f-9247-bb680e5fe0c8").map text =
    some "67e55044-10b1-426f-9247-bb680e5fe0c8" := by decide +kernel

end Guid

end SqlCompose
