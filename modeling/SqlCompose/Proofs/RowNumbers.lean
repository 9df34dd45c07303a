/-
Which rows a window of row numbers keeps.

Oracle numbers rows while it takes them: a row is tested with the number after the rows taken
so far, and a row that fails leaves its number to the next. So a window either begins at the
first row or keeps nothing at all (`RowTest.taken_window`): the first row is tested with number
one until one is taken. Of the pages of a query only the first has its rows
(`Dialect.oracle_page_rows`), where every other engine is given an ending that has them.
-/
import SqlCompose.Proofs.Ledger
import SqlCompose.Proofs.Pages

namespace SqlCompose

/-! ## Tests on row numbers -/

def Parameters.int? (p : Parameters) (key : String) : Option Int :=
  match p.get? key with
  | some (.int w) => some w.toInt
  | _ => none

namespace RowTest

/-- Row number `n` passes the test. Nothing is above or up to a name that no number is bound to. -/
def holds (p : Parameters) (n : Nat) : RowTest → Bool
  | above key => (p.int? key).any fun bound : Int => bound < n
  | upTo key => (p.int? key).any fun bound : Int => n ≤ bound
  | both a b => a.holds p n && b.holds p n

/-- The rows taken of a list, after `k` others. A row is tested with the number it would get. -/
def taken {α : Type} (test : RowTest) (p : Parameters) : Nat → List α → List α
  | _, [] => []
  | k, row :: rows =>
    if test.holds p (k + 1) then row :: taken test p (k + 1) rows else taken test p k rows

variable {α : Type} {test : RowTest} {p : Parameters}

/-- Once a row fails all later ones do, since its number goes to the next. -/
theorem taken_of_not_holds {k : Nat} (h : test.holds p (k + 1) = false) (rows : List α) :
    test.taken p k rows = [] := by
  induction rows with
  | nil => rfl
  | cons row rows ih =>
    rw [taken, h]
    exact ih

/-- A test that passes the numbers up to `last` takes the rows until then. -/
theorem taken_of_holds_iff {k last : Nat} (hk : k ≤ last)
    (h : ∀ n, k < n → (test.holds p n ↔ n ≤ last)) (rows : List α) :
    test.taken p k rows = rows.take (last - k) := by
  induction rows generalizing k with
  | nil => rw [taken, List.take_nil]
  | cons row rows ih =>
    have hnext := h (k + 1) (Nat.lt_succ_self k)
    obtain rfl | hlt := Nat.eq_or_lt_of_le hk
    · have hfails : test.holds p (k + 1) = false := by
        rw [← Bool.not_eq_true, hnext]
        omega
      rw [taken_of_not_holds hfails, Nat.sub_self, List.take_zero]
    · have hstep : last - k = last - (k + 1) + 1 := by omega
      rw [taken, if_pos (hnext.2 hlt), hstep, List.take_succ_cons,
        ih hlt fun n hn => h n (Nat.lt_of_succ_lt hn)]

/-- A window keeps rows only if it begins at the first. -/
theorem taken_window {first last : Nat} (h : ∀ n, test.holds p n ↔ first < n ∧ n ≤ last)
    (rows : List α) :
    test.taken p 0 rows = if first = 0 then rows.take last else [] := by
  split
  · next hzero =>
    refine taken_of_holds_iff (Nat.zero_le last) (fun n hn => ?_) rows
    rw [h n, hzero]
    exact and_iff_right hn
  · next hpos =>
    refine taken_of_not_holds ?_ rows
    rw [← Bool.not_eq_true, h]
    omega

/-- The window between the two values that are bound next. -/
def next (p : Parameters) : RowTest :=
  window (Parameters.key p.tag p.size) (Parameters.key p.tag (p.size + 1))

theorem holds_next (tag : String) (vs : List Value) (low high : Int64) (n : Nat) :
    (next (.extend { tag := tag } vs)).holds (.extend { tag := tag } (vs ++ [.int low, .int high]))
        n ↔ low.toInt < n ∧ (n : Int) ≤ high.toInt := by
  have hsize : (Parameters.extend { tag := tag } vs).size = vs.length := by
    rw [Parameters.size_extend]
    exact Nat.zero_add _
  simp [next, window, holds, hsize, Parameters.int?, Parameters.get?_extend]

end RowTest

/-! ## The rows of a page -/

namespace Paging

variable {size page : UInt64}

/-- The rows of a page among those of the query. -/
def slice {α : Type} (size page : UInt64) (rows : List α) : List α :=
  (rows.drop (start size page)).take size.toNat

theorem slice_eq_nil_iff {α : Type} {rows : List α} :
    slice size page rows = [] ↔ size = 0 ∨ rows.length ≤ start size page := by
  rw [slice, List.take_eq_nil_iff, List.drop_eq_nil_iff, ← UInt64.toNat_inj]
  rfl

theorem start_add_size (size : UInt64) (hpage : 1 ≤ page) :
    start size page + size.toNat = size.toNat * page.toNat := by
  have hpage : 1 ≤ page.toNat := hpage
  have hnext : max page.toNat 1 - 1 + 1 = page.toNat := by omega
  rw [start, ← Nat.mul_succ, Nat.succ_eq_add_one, hnext]

theorem start_eq_zero_iff (hpage : 1 ≤ page) : start size page = 0 ↔ size = 0 ∨ page = 1 := by
  have hpage : 1 ≤ page.toNat := hpage
  have hone : max page.toNat 1 - 1 = 0 ↔ page.toNat = 1 := by omega
  rw [start, Nat.mul_eq_zero, hone, ← UInt64.toNat_inj, ← UInt64.toNat_inj]
  rfl

theorem offset_of_fits (hpage : 1 ≤ page) (hfit : size.toNat * page.toNat ≤ 2 ^ 63 - 1) :
    offset size page = start size page := by
  have hend := start_add_size size hpage
  rw [offset_eq]
  omega

end Paging

namespace Dialect

open Paging

variable {size page : UInt64}

theorem holds_oracle_page (hpage : 1 ≤ page) (hfit : size.toNat * page.toNat ≤ 2 ^ 63 - 1)
    (c : Clauses) (tag : String) (vs : List Value) (n : Nat) :
    (RowTest.next (.extend { tag := tag } vs)).holds
        (oracle.page size page c (.extend { tag := tag } vs)).2 n ↔
      start size page < n ∧ n ≤ start size page + size.toNat := by
  obtain ⟨low, high, heq, hlow, hhigh⟩ :=
    exists_oracle_page size page c (.extend { tag := tag } vs)
  have htable : (oracle.page size page c (.extend { tag := tag } vs)).2 =
      .extend { tag := tag } (vs ++ [.int low, .int high]) := by
    rw [heq, ← Parameters.extend_singleton, ← Parameters.extend_singleton,
      Parameters.extend_extend, Parameters.extend_extend, List.append_assoc]
    rfl
  have hend := start_add_size size hpage
  have hmax : maxWord = 2 ^ 64 - 1 := rfl
  rw [offset_of_fits hpage hfit] at hlow hhigh
  rw [last, hmax] at hhigh
  rw [htable, RowTest.holds_next]
  omega

theorem taken_oracle_page (hpage : 1 ≤ page) (hfit : size.toNat * page.toNat ≤ 2 ^ 63 - 1)
    (c : Clauses) (tag : String) (vs : List Value) {α : Type} (rows : List α) :
    (RowTest.next (.extend { tag := tag } vs)).taken
        (oracle.page size page c (.extend { tag := tag } vs)).2 0 rows =
      if page = 1 then slice size page rows else [] := by
  rw [RowTest.taken_window (holds_oracle_page hpage hfit c tag vs) rows]
  by_cases hone : page = 1
  · have hstart : start size page = 0 := (start_eq_zero_iff hpage).2 (.inr hone)
    rw [if_pos hstart, if_pos hone, slice, hstart, Nat.zero_add, List.drop_zero]
  · rw [if_neg hone]
    split
    · next hstart =>
      -- A later page starts with the first row only if there are no rows on a page.
      have hsize : size = 0 := ((start_eq_zero_iff hpage).1 hstart).resolve_right hone
      rw [hstart, hsize]
      rfl
    · rfl

/-- **Oracle has the rows of the first page only.** The window of any other keeps nothing, which is
right only of a page that has no rows. The other engines are given an ending for the page's own. -/
theorem oracle_page_rows (hpage : 1 ≤ page) (hfit : size.toNat * page.toNat ≤ 2 ^ 63 - 1)
    (c : Clauses) (tag : String) (vs : List Value) {α : Type} (rows : List α) :
    let p := Parameters.extend { tag := tag } vs
    let kept := (RowTest.next p).taken (oracle.page size page c p).2 0 rows
    (oracle.page size page c p).1 = { c with rowWindow := (RowTest.next p).text } ∧
    (∀ d, d ≠ oracle → d.page size page c p =
      ({ c with ending := d.pageEnding size.toNat (start size page) }, p)) ∧
    kept = (if page = 1 then slice size page rows else []) ∧
    (kept = slice size page rows ↔ page = 1 ∨ size = 0 ∨ rows.length ≤ start size page) := by
  intro p kept
  have hkept : kept = if page = 1 then slice size page rows else [] :=
    taken_oracle_page hpage hfit c tag vs rows
  refine ⟨?_, fun d hd => ?_, hkept, ?_⟩
  · obtain ⟨low, high, heq, -, -⟩ := exists_oracle_page size page c p
    rw [heq, RowTest.next, Parameters.nextKey, Parameters.nextKey, Parameters.tag_push,
      Parameters.size_push]
  · rw [page_of_ne_oracle hd, offset_of_fits hpage hfit]
  · rw [hkept]
    split
    · next hone => exact iff_of_true rfl (.inl hone)
    · next hone => rw [eq_comm, slice_eq_nil_iff, or_iff_right hone]

/-- The first page of two rows has two of three. -/
theorem oracle_page_rows_first :
    (1 : UInt64) ≤ 1 ∧ (2 : UInt64).toNat * (1 : UInt64).toNat ≤ 2 ^ 63 - 1 ∧
    (RowTest.next (.extend { tag := ":" } [.string "Ann"])).taken
      (oracle.page 2 1 { table := "Person", source := "Person" }
        (.extend { tag := ":" } [.string "Ann"])).2 0 [4, 5, 6] = [4, 5] :=
  ⟨by decide, by decide,
    (oracle_page_rows (by decide) (by decide) { table := "Person", source := "Person" }
      ":" [.string "Ann"] [4, 5, 6]).2.2.1⟩

/-- The second page of one row has none of three, where it should have the second. -/
theorem oracle_page_rows_second :
    (oracle.page 1 2 { table := "Person", source := "Person" } { tag := ":" }).1.rowWindow =
      (RowTest.window ":p0" ":p1").text ∧
    (RowTest.window ":p0" ":p1").taken
      (oracle.page 1 2 { table := "Person", source := "Person" } { tag := ":" }).2 0 [4, 5, 6] = [] ∧
    slice 1 2 [4, 5, 6] = [5] :=
  ⟨rfl, rfl, rfl⟩

end Dialect

end SqlCompose
