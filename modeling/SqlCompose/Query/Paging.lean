/-
Limits on the rows of a query. Most engines take an ending, SQL Server a number
in the select list for the first rows, and Oracle a window of row numbers, whose
bounds are parameters.

Counts are words of 64 bits; an offset beyond them stays at the largest, and
Oracle's bounds stay within a signed word.
-/
import SqlCompose.Dialect.Basic
import SqlCompose.Parameters
import SqlCompose.Query.Clauses

namespace SqlCompose

namespace Paging

def maxWord : Nat := UInt64.size - 1

/-- The rows before page `page`, counted from one; page zero is page one. -/
def offset (size page : UInt64) : Nat := min (size.toNat * (page.toNat - 1)) maxWord

/-- The last row of the page that starts after `start` rows. -/
def last (start : Nat) (size : UInt64) : Nat := min (start + size.toNat) maxWord

/-- A row number as a value, at most the largest signed word. -/
def rowBound (n : Nat) : Value := .int (Int64.ofNat (min n (UInt64.size / 2 - 1)))

end Paging

namespace Dialect

open Paging

def limit (d : Dialect) (n : UInt64) (c : Clauses) (p : Parameters) : Clauses × Parameters :=
  match d with
  | sqlServer => ({ c with format := { c.format with top := some n } }, p)
  | oracle =>
    ({ c with rowWindow := "(ROWNUM <= " ++ p.nextKey ++ ")" }, p.push (rowBound n.toNat))
  | _ => ({ c with ending := "LIMIT " ++ n.toNat.repr }, p)

def page (d : Dialect) (size page : UInt64) (c : Clauses) (p : Parameters) :
    Clauses × Parameters :=
  let start := offset size page
  match d with
  | sqlServer =>
    ({ c with ending :=
        "OFFSET " ++ start.repr ++ " ROWS FETCH NEXT " ++ size.toNat.repr ++ " ROWS ONLY" }, p)
  | oracle =>
    let q := p.push (rowBound start)
    ({ c with rowWindow :=
        "((ROWNUM > " ++ p.nextKey ++ ") AND (ROWNUM <= " ++ q.nextKey ++ "))" },
      q.push (rowBound (last start size)))
  | _ => ({ c with ending := "LIMIT " ++ size.toNat.repr ++ " OFFSET " ++ start.repr }, p)

end Dialect

end SqlCompose
