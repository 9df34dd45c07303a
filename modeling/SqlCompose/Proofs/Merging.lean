/-
Parameter tables that are merged.

A new value gets the name with the number of entries there are. Merging brings in names with other
tags, and the same name twice where both tables counted under one tag, so the numbers of a table
need not be the places of its entries. What every table keeps is that each name in it has a number
below the number of entries (`Numbered`). A name says of which tag and number it is made
(`key_eq_iff`), so the next one is new. And as entries only come after those that are there, a value
once found under a name is found under it from then on (`Grows.get?_eq_some`).
-/
import Mathlib.Data.List.Basic
import SqlCompose.Parameters
import SqlCompose.Proofs.Lexing

namespace SqlCompose.Parameters

variable {p q : Parameters}

/-! ## Names -/

theorem repr_injective : Function.Injective Nat.repr := by
  intro m n h
  rw [Nat.repr_eq_ofList_toDigits, Nat.repr_eq_ofList_toDigits, String.ofList_inj] at h
  calc m = Nat.ofDigitChars 10 (Nat.toDigits 10 m) 0 := Nat.ofDigitChars_ten_toDigits.symm
    _ = Nat.ofDigitChars 10 (Nat.toDigits 10 n) 0 := by rw [h]
    _ = n := Nat.ofDigitChars_ten_toDigits

theorem append_cons_inj_of_notMem_right {c : Char} {a b r s : List Char} (hr : c ∉ r) (hs : c ∉ s)
    (h : a ++ c :: r = b ++ c :: s) : a = b ∧ r = s := by
  obtain ⟨u, hb, hu⟩ | ⟨u, ha, hu⟩ := List.append_eq_append_iff.1 h
  · cases u with
    | nil =>
      cases hu
      exact ⟨by simpa using hb.symm, rfl⟩
    | cons d u =>
      cases hu
      simp at hr
  · cases u with
    | nil =>
      cases hu
      exact ⟨by simpa using ha, rfl⟩
    | cons d u =>
      cases hu
      simp at hs

/-- A name tells its tag and its number, whatever the tag: no `p` is among the digits. -/
theorem key_eq_iff {tag tag' : String} {m n : Nat} :
    key tag m = key tag' n ↔ tag = tag' ∧ m = n := by
  constructor
  · intro h
    have hdigits : ∀ k : Nat, 'p' ∉ k.repr.toList := by
      intro k hk
      exact absurd (isDigit_of_mem_repr hk) (by decide)
    have hchars : tag.toList ++ 'p' :: m.repr.toList = tag'.toList ++ 'p' :: n.repr.toList := by
      simpa [key] using congrArg String.toList h
    obtain ⟨htag, hrepr⟩ :=
      append_cons_inj_of_notMem_right (hdigits m) (hdigits n) hchars
    exact ⟨String.toList_inj.1 htag, repr_injective (String.toList_inj.1 hrepr)⟩
  · rintro ⟨rfl, rfl⟩
    rfl

/-! ## Tables -/

/-- The tables there are: empty ones, and those that come of adding a value and of merging. -/
inductive Built : Parameters → Prop
  | empty (tag : String) : Built { tag := tag }
  | push {p : Parameters} (hp : Built p) (v : Value) : Built (p.push v)
  | merge {p q : Parameters} (hp : Built p) (hq : Built q) : Built (p.merge q)

/-- What becomes of a table: values are added to it, and other tables are merged into it. -/
inductive Grows (p : Parameters) : Parameters → Prop
  | refl : Grows p p
  | push {q : Parameters} (h : Grows p q) (v : Value) : Grows p (q.push v)
  | merge {q : Parameters} (h : Grows p q) (r : Parameters) : Grows p (q.merge r)

/-- Each name has a number below the number of entries. -/
def Numbered (p : Parameters) : Prop := ∀ k ∈ p.keys, ∃ tag n, n < p.size ∧ k = key tag n

@[simp] theorem keys_push (p : Parameters) (v : Value) :
    (p.push v).keys = p.keys ++ [p.nextKey] := by
  simp [push, keys]

@[simp] theorem keys_merge (p q : Parameters) : (p.merge q).keys = p.keys ++ q.keys := by
  simp [merge, keys]

@[simp] theorem size_merge (p q : Parameters) : (p.merge q).size = p.size + q.size := by
  simp [merge, size]

theorem Numbered.push (h : p.Numbered) (v : Value) : (p.push v).Numbered := by
  intro k hk
  rw [keys_push, List.mem_append, List.mem_singleton] at hk
  rw [size_push]
  obtain hk | rfl := hk
  · obtain ⟨tag, n, hn, rfl⟩ := h k hk
    exact ⟨tag, n, by omega, rfl⟩
  · exact ⟨p.tag, p.size, by omega, rfl⟩

theorem Numbered.merge (hp : p.Numbered) (hq : q.Numbered) : (p.merge q).Numbered := by
  intro k hk
  rw [keys_merge, List.mem_append] at hk
  rw [size_merge]
  obtain hk | hk := hk
  · obtain ⟨tag, n, hn, rfl⟩ := hp k hk
    exact ⟨tag, n, by omega, rfl⟩
  · obtain ⟨tag, n, hn, rfl⟩ := hq k hk
    exact ⟨tag, n, by omega, rfl⟩

theorem Built.numbered (h : p.Built) : p.Numbered := by
  induction h with
  | empty tag => simp [Numbered, keys]
  | push hp v ih => exact ih.push v
  | merge hp hq ihp ihq => exact ihp.merge ihq

/-- The next name would have the number of entries there are, and no entry has so high a number. -/
theorem Numbered.nextKey_not_mem (h : p.Numbered) : p.nextKey ∉ p.keys := by
  intro hk
  obtain ⟨tag, n, hn, heq⟩ := h _ hk
  have hsize : p.size = n := (key_eq_iff.1 heq).2
  omega

/-! ## Look-ups -/

theorem get?_eq_none_iff (p : Parameters) (k : String) : p.get? k = none ↔ k ∉ p.keys := by
  rw [get?, List.lookup_eq_none_iff, keys]
  constructor
  · intro h hk
    obtain ⟨e, he, rfl⟩ := List.mem_map.1 hk
    simpa using h e he
  · intro h e he
    simp only [bne_iff_ne]
    rintro rfl
    exact h (List.mem_map.2 ⟨e, he, rfl⟩)

theorem get?_merge (p q : Parameters) (k : String) :
    (p.merge q).get? k = (p.get? k).or (q.get? k) :=
  List.lookup_append

theorem Numbered.get?_push (h : p.Numbered) (v : Value) : (p.push v).get? p.nextKey = some v := by
  have hnone : p.entries.lookup p.nextKey = none := (get?_eq_none_iff p _).2 h.nextKey_not_mem
  rw [get?, Parameters.push, List.lookup_append, hnone]
  simp

theorem Grows.entries_prefix (h : p.Grows q) : p.entries <+: q.entries := by
  induction h with
  | refl => exact List.prefix_refl _
  | push h v ih => exact ih.trans (List.prefix_append _ _)
  | merge h r ih => exact ih.trans (List.prefix_append _ _)

theorem Grows.get?_eq_some (h : p.Grows q) {k : String} {v : Value} (hk : p.get? k = some v) :
    q.get? k = some v := by
  obtain ⟨later, heq⟩ := h.entries_prefix
  rw [get?] at hk
  rw [get?, ← heq, List.lookup_append, hk]
  rfl

/-- **New names are new, and stay.** In whatever way a table was built, a value that is added gets
a name that is not in the table, and is found under it from then on. So is whatever is found before
something is added or merged. A merged table keeps the entries of both in order, and looks a name up
in the left one first. -/
theorem built_fresh (hp : p.Built) :
    (∀ v, p.nextKey ∉ p.keys ∧ (p.push v).keys = p.keys ++ [p.nextKey] ∧
      ∀ q, (p.push v).Grows q → q.get? p.nextKey = some v) ∧
    (∀ q, p.Grows q → ∀ k v, p.get? k = some v → q.get? k = some v) ∧
    ∀ q, (p.merge q).entries = p.entries ++ q.entries ∧
      (∀ k, (p.merge q).get? k = (p.get? k).or (q.get? k)) ∧
      ∀ r, (p.merge q).Grows r → p.entries ++ q.entries <+: r.entries := by
  refine ⟨fun v => ⟨hp.numbered.nextKey_not_mem, keys_push p v, fun q h => ?_⟩,
    fun q h k v => h.get?_eq_some,
    fun q => ⟨rfl, get?_merge p q, fun r h => h.entries_prefix⟩⟩
  exact h.get?_eq_some (hp.numbered.get?_push v)

/-- One name is in the table twice and a tag looks like a name, and the next name is still new. -/
theorem built_fresh_same_name_twice :
    let left : Parameters := push { tag := "@" } (.int 1)
    let right : Parameters := push { tag := "@" } (.int 2)
    let other : Parameters := push { tag := "@p1" } (.int 3)
    let p := (left.merge right).merge other
    p.Built ∧ p.keys = ["@p0", "@p0", "@p1p0"] ∧ p.nextKey = "@p3" ∧ p.nextKey ∉ p.keys ∧
      (p.push (.int 4)).get? "@p3" = some (.int 4) ∧
      left.get? "@p0" = some (.int 1) ∧ p.get? "@p0" = some (.int 1) :=
  have hleft := Built.push (.empty "@") (.int 1)
  have hp := (hleft.merge (.push (.empty "@") (.int 2))).merge (.push (.empty "@p1") (.int 3))
  have hgrows := (Grows.refl.merge (push { tag := "@" } (.int 2))).merge
    (push { tag := "@p1" } (.int 3))
  have h := built_fresh hp
  ⟨hp, by decide, by decide, (h.1 (.int 4)).1, (h.1 (.int 4)).2.2 _ .refl, rfl,
    (built_fresh hleft).2.1 _ hgrows _ _ rfl⟩

end SqlCompose.Parameters
