/-
The pages of a query: which rows they have, and which rows each engine is asked for.

`Paging.OnPage` says it in unbounded numbers. Offsets are kept within a word, and the
bounds of a window of row numbers within a signed word. For the rows that a signed word can
number nothing is lost by that, wherever the limits are hit (`Paging.onPage_iff_offset`,
`Paging.onPage_iff_bounds`). A row is on the page that dividing by the size gives and on no
other (`Paging.onPage_iff_number`), so pages leave out no row and share none.
`Dialect.page_window` says it of the clauses and parameters an engine is given.
-/
import Mathlib.Algebra.Group.Int.Defs
import Mathlib.Algebra.Group.Nat.Defs
import Mathlib.Logic.ExistsUnique
import SqlCompose.Query.Paging

namespace SqlCompose

/-! ## What the clauses ask for -/

/-- A condition on the number of a row, which is compared with parameters. -/
inductive RowTest where
  | above (key : String)
  | upTo (key : String)
  | both (a b : RowTest)
  deriving DecidableEq, Repr

namespace RowTest

def text : RowTest → String
  | above key => "(ROWNUM > " ++ key ++ ")"
  | upTo key => "(ROWNUM <= " ++ key ++ ")"
  | both a b => "(" ++ a.text ++ " AND " ++ b.text ++ ")"

def window (low high : String) : RowTest := both (above low) (upTo high)

theorem text_window (low high : String) :
    (window low high).text = "((ROWNUM > " ++ low ++ ") AND (ROWNUM <= " ++ high ++ "))" := by
  have hopen : "((ROWNUM > " = "(" ++ "(ROWNUM > " := rfl
  have hand : ") AND (ROWNUM <= " = ")" ++ " AND " ++ "(ROWNUM <= " := rfl
  have hclose : "))" = ")" ++ ")" := rfl
  simp only [window, text, hopen, hand, hclose, String.append_assoc]

end RowTest

def Dialect.pageEnding (d : Dialect) (count skipped : Nat) : String :=
  match d with
  | sqlServer => "OFFSET " ++ skipped.repr ++ " ROWS FETCH NEXT " ++ count.repr ++ " ROWS ONLY"
  | _ => "LIMIT " ++ count.repr ++ " OFFSET " ++ skipped.repr

namespace Paging

/-! ## The rows of a page -/

/-- The rows before a page, however many. Page zero is page one. -/
def start (size page : UInt64) : Nat := size.toNat * (max page.toNat 1 - 1)

/-- Row `r`, counted from one, is on the page. -/
def OnPage (size page : UInt64) (r : Nat) : Prop :=
  start size page < r ∧ r ≤ start size page + size.toNat

theorem offset_eq (size page : UInt64) : offset size page = min (start size page) (2 ^ 64 - 1) := by
  have hpage : max page.toNat 1 - 1 = page.toNat - 1 := by omega
  rw [offset, start, hpage]
  rfl

example : start 0x8000000000000000 3 = 2 ^ 64 ∧ offset 0x8000000000000000 3 = 2 ^ 64 - 1 := by
  decide

/-- A page whose offset does not fit a word has no row that a signed word can number. -/
theorem onPage_iff_offset {size page : UInt64} {r : Nat} (hr : r ≤ 2 ^ 63 - 1) :
    OnPage size page r ↔ offset size page < r ∧ r ≤ offset size page + size.toNat := by
  rw [OnPage, offset_eq]
  omega

/-- Neither the end of the page nor the bounds lose such a row where they are cut. -/
theorem onPage_iff_bounds {size page : UInt64} {r : Nat} (hr : r ≤ 2 ^ 63 - 1) :
    OnPage size page r ↔
      min (offset size page) (2 ^ 63 - 1) < r ∧
        r ≤ min (last (offset size page) size) (2 ^ 63 - 1) := by
  have hmax : maxWord = 2 ^ 64 - 1 := rfl
  rw [onPage_iff_offset hr, last, hmax]
  omega

theorem exists_rowBound (n : Nat) :
    ∃ w : Int64, rowBound n = .int w ∧ w.toInt = min n (2 ^ 63 - 1) := by
  have hmax : UInt64.size / 2 - 1 = 2 ^ 63 - 1 := by decide
  refine ⟨_, rfl, ?_⟩
  rw [hmax, Int64.toInt_ofNat_of_lt (by omega)]

/-- The page of a row is found by division. -/
theorem onPage_iff_number {size page : UInt64} {r : Nat} (hsize : 1 ≤ size) (hpage : 1 ≤ page)
    (hr : 1 ≤ r) : OnPage size page r ↔ page.toNat = (r - 1) / size.toNat + 1 := by
  have hsize : 1 ≤ size.toNat := hsize
  have hpage : 1 ≤ page.toNat := hpage
  have hmax : max page.toNat 1 - 1 = page.toNat - 1 := by omega
  have hdiv := Nat.div_eq_iff (x := r - 1) (y := page.toNat - 1) hsize
  rw [OnPage, start, hmax, Nat.mul_comm]
  omega

/-- Every row is on one page. -/
theorem existsUnique_onPage {size : UInt64} {r : Nat} (hsize : 1 ≤ size) (hr : 1 ≤ r)
    (hmax : r ≤ 2 ^ 63 - 1) : ∃! page : UInt64, 1 ≤ page ∧ OnPage size page r := by
  have hle : (r - 1) / size.toNat ≤ r - 1 := Nat.div_le_self _ _
  have hnumber : (UInt64.ofNat ((r - 1) / size.toNat + 1)).toNat = (r - 1) / size.toNat + 1 :=
    UInt64.toNat_ofNat_of_lt' (by
      have : UInt64.size = 2 ^ 64 := rfl
      omega)
  refine ⟨UInt64.ofNat ((r - 1) / size.toNat + 1), ?_, ?_⟩
  · have hone : (1 : UInt64) ≤ UInt64.ofNat ((r - 1) / size.toNat + 1) := by
      rw [UInt64.le_iff_toNat_le, hnumber]
      exact Nat.le_add_left 1 _
    exact ⟨hone, (onPage_iff_number hsize hone hr).2 hnumber⟩
  · rintro page ⟨hone, hon⟩
    rw [← UInt64.toNat_inj, hnumber]
    exact (onPage_iff_number hsize hone hr).1 hon

end Paging

namespace Dialect

open Paging

/-- Oracle binds two bounds and compares row numbers with them. -/
theorem exists_oracle_page (size page : UInt64) (c : Clauses) (p : Parameters) :
    ∃ low high : Int64,
      oracle.page size page c p =
        ({ c with rowWindow := (RowTest.window p.nextKey (p.push (.int low)).nextKey).text },
          (p.push (.int low)).push (.int high)) ∧
      low.toInt = min (offset size page) (2 ^ 63 - 1) ∧
      high.toInt = min (last (offset size page) size) (2 ^ 63 - 1) := by
  obtain ⟨low, hlow, hlow'⟩ := exists_rowBound (offset size page)
  obtain ⟨high, hhigh, hhigh'⟩ := exists_rowBound (last (offset size page) size)
  refine ⟨low, high, ?_, hlow', hhigh'⟩
  rw [RowTest.text_window, Dialect.page, hlow, hhigh]

/-- The other engines are told how many rows to skip and how many to take. -/
theorem page_of_ne_oracle {d : Dialect} (hd : d ≠ oracle) (size page : UInt64) (c : Clauses)
    (p : Parameters) :
    d.page size page c p =
      ({ c with ending := d.pageEnding size.toNat (offset size page) }, p) := by
  cases d <;> first | exact absurd rfl hd | rfl

/-- **Every engine is asked for the rows of the page**, as far as a signed word can number them,
whatever size and page are. Pages of at least one row share none and leave out none, and page
zero is page one. -/
theorem page_window (size page : UInt64) (c : Clauses) (p : Parameters) :
    (∃ low high : Int64,
      oracle.page size page c p =
        ({ c with rowWindow := (RowTest.window p.nextKey (p.push (.int low)).nextKey).text },
          (p.push (.int low)).push (.int high)) ∧
      ∀ r : Nat, 1 ≤ r → r ≤ 2 ^ 63 - 1 →
        (OnPage size page r ↔ low.toInt < r ∧ (r : Int) ≤ high.toInt)) ∧
    (∀ d, d ≠ oracle → ∃ skipped : Nat,
      d.page size page c p = ({ c with ending := d.pageEnding size.toNat skipped }, p) ∧
      ∀ r : Nat, 1 ≤ r → r ≤ 2 ^ 63 - 1 →
        (OnPage size page r ↔ skipped < r ∧ r ≤ skipped + size.toNat)) ∧
    (1 ≤ size → ∀ r : Nat, 1 ≤ r → r ≤ 2 ^ 63 - 1 →
      ∃! number : UInt64, 1 ≤ number ∧ OnPage size number r) ∧
    ∀ d : Dialect, d.page size 0 c p = d.page size 1 c p := by
  refine ⟨?_, fun d hd => ?_, fun hsize r => existsUnique_onPage hsize, fun d => ?_⟩
  · obtain ⟨low, high, hpage, hlow, hhigh⟩ := exists_oracle_page size page c p
    refine ⟨low, high, hpage, fun r _ hr => ?_⟩
    rw [onPage_iff_bounds hr]
    omega
  · exact ⟨_, page_of_ne_oracle hd size page c p, fun r _ hr => onPage_iff_offset hr⟩
  · cases d <;> rfl

end Dialect

end SqlCompose
