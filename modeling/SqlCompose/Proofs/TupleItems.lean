/-
Tuples and the lists of their items.

A tuple is as many entries of a list as it has items, so compiling it should be compiling the items
one after the other and setting the texts side by side. `Target.compile_tuple` says when it is. Two
kinds of tuples differ, and only these. Items that are all constant make a constant, which brings
parentheses of its own, so the tuple is one entry. And in a descending sort an item that is a tuple
again carries the direction after its last item only, since each item of the outer tuple gets one.
What is bound is the same in every case.
-/
import Mathlib.Algebra.GroupWithZero.Nat
import Mathlib.Algebra.Order.BigOperators.Group.List
import Mathlib.Algebra.Order.Group.Nat
import SqlCompose.Proofs.NormalForm
import SqlCompose.Proofs.Relocation

namespace SqlCompose

/-! ## Lengths of comma lists -/

theorem length_commaList {xs : List String} (h : xs ≠ []) :
    (commaList xs).length + 2 = (xs.map (·.length + 2)).sum := by
  induction xs with
  | nil => exact absurd rfl h
  | cons x rest ih =>
    cases rest with
    | nil => simp [commaList]
    | cons y rest =>
      have ih := ih (List.cons_ne_nil y rest)
      have hsep : (", " : String).length = 2 := rfl
      rw [List.map_cons, List.sum_cons, ← ih]
      simp only [commaList, joinWith_cons_cons, String.length_append, hsep]
      omega

theorem length_commaList_suffix (suffix : String) (xs : List String) :
    (commaList (xs.map (· ++ suffix))).length =
      (commaList xs).length + xs.length * suffix.length := by
  by_cases h : xs = []
  · simp [h, commaList]
  have hmap : xs.map (· ++ suffix) ≠ [] := by simpa using h
  have hsum : ((xs.map (· ++ suffix)).map (·.length + 2)).sum =
      (xs.map (·.length + 2)).sum + xs.length * suffix.length := by
    clear h hmap
    induction xs with
    | nil => simp
    | cons x rest ih =>
      simp only [List.map_cons, List.sum_cons, ih, String.length_append, List.length_cons,
        Nat.add_mul]
      omega
  have hlen := length_commaList h
  have hlen' := length_commaList hmap
  omega

theorem length_commaList_map_lt {α : Type} {f g : α → String} {xs : List α}
    (hle : ∀ x ∈ xs, (f x).length ≤ (g x).length)
    (hlt : ∃ x ∈ xs, (f x).length < (g x).length) :
    (commaList (xs.map f)).length < (commaList (xs.map g)).length := by
  have hne : xs ≠ [] := by
    rintro rfl
    simp at hlt
  have hf := length_commaList (mt List.map_eq_nil_iff.1 hne : xs.map f ≠ [])
  have hg := length_commaList (mt List.map_eq_nil_iff.1 hne : xs.map g ≠ [])
  have hsum : (xs.map fun x => (f x).length + 2).sum < (xs.map fun x => (g x).length + 2).sum := by
    obtain ⟨x, hx, hxlt⟩ := hlt
    exact List.sum_lt_sum _ _ (fun y hy => Nat.add_le_add_right (hle y hy) 2)
      ⟨x, hx, Nat.add_lt_add_right hxlt 2⟩
  simp only [List.map_map, Function.comp_def] at hf hg
  omega

/-! ## Computations on the items of a list -/

namespace Binder

variable {α β γ : Type} {f : α → Binder β}

theorem exists_exec_mapM : ∀ {xs : List α},
    (∀ x ∈ xs, ∀ p, ∃ y q, (f x).exec p = (.ok y, q)) → ∀ p : Parameters,
    ∃ ys q, (xs.mapM f).exec p = (.ok ys, q)
  | [], _, p => ⟨[], p, rfl⟩
  | x :: xs, h, p => by
    obtain ⟨y, p', hy⟩ := h x List.mem_cons_self p
    obtain ⟨ys, q, hys⟩ := exists_exec_mapM (fun z hz => h z (List.mem_cons_of_mem _ hz)) p'
    refine ⟨y :: ys, q, ?_⟩
    rw [List.mapM_cons, exec_bind_ok hy, exec_bind_ok hys]
    rfl

theorem exec_mapM_map (g : β → γ) : ∀ {xs : List α} {ys : List β} {p q : Parameters},
    (xs.mapM f).exec p = (.ok ys, q) →
    (xs.mapM fun x => do return g (← f x)).exec p = (.ok (ys.map g), q)
  | [], ys, p, q, h => by
    cases h
    rfl
  | x :: xs, ys, p, q, h => by
    obtain ⟨y, rest, p', hy, hrest, rfl⟩ := exec_mapM_cons h
    have hx : (do return g (← f x) : Binder γ).exec p = (.ok (g y), p') := by
      rw [exec_bind_ok hy]
      rfl
    rw [List.mapM_cons, exec_bind_ok hx, exec_bind_ok (exec_mapM_map g hrest)]
    rfl

theorem forall₂_of_exec_mapM : ∀ {xs : List α} {ys : List β} {p q : Parameters},
    (xs.mapM f).exec p = (.ok ys, q) →
    List.Forall₂ (fun x y => ∃ p q, (f x).exec p = (.ok y, q)) xs ys
  | [], ys, p, q, h => by
    cases h
    exact .nil
  | x :: xs, ys, p, q, h => by
    obtain ⟨y, rest, p', hy, hrest, rfl⟩ := exec_mapM_cons h
    exact .cons ⟨p, p', hy⟩ (forall₂_of_exec_mapM hrest)

end Binder

theorem Relocatable.exec_ok {m : Binder String} (hm : Relocatable m) {p q : Parameters}
    {text : String} (h : m.exec p = (.ok text, q)) (p' : Parameters) :
    ∃ text' q', m.exec p' = (.ok text', q') := by
  obtain ⟨⟨outcome, vs, ordered⟩, hs⟩ := hm
  rw [hs] at h
  cases outcome with
  | error err => cases h
  | ok T => exact ⟨_, _, hs p'⟩

/-! ## Entries of a list -/

namespace Expr

/-- The entries a reduced expression is in a list: the items of a tuple, and else itself. -/
def entries : Expr → List Expr
  | tuple items => items
  | e => [e]

def reducesToConst (e : Expr) : Bool :=
  match e.reduce .value with
  | .ok (const _) => true
  | _ => false

def reducesToSeveral (e : Expr) : Bool :=
  match e.reduce .value with
  | .ok (tuple (_ :: _ :: _)) => true
  | _ => false

/-- The second expression is what is left of the first as a value. -/
def ReducesTo (e r : Expr) : Prop := e.reduce .value = .ok r

variable {items rs : List Expr}

theorem reduceAll_of_forall₂ (h : List.Forall₂ ReducesTo items rs) :
    reduceAll items = .ok rs := by
  induction h with
  | nil => rfl
  | cons he _ ih =>
    rw [reduceAll, he, ih]
    rfl

theorem ReducesTo.reducesToConst {e r : Expr} (h : e.ReducesTo r) :
    e.reducesToConst = r.asConst?.isSome := by
  unfold Expr.reducesToConst
  rw [h]
  cases r <;> rfl

theorem ReducesTo.reducesToSeveral {e r : Expr} (h : e.ReducesTo r) :
    e.reducesToSeveral = decide (1 < r.entries.length) := by
  unfold Expr.reducesToSeveral
  rw [h]
  cases r with
  | tuple items =>
    match items with
    | [] | [_] | _ :: _ :: _ => simp [entries]
  | _ => simp [entries]

/-- What is left of a tuple has an item that is no constant, so it has one. -/
theorem ReducesTo.entries_ne_nil {e r : Expr} (h : e.ReducesTo r) : r.entries ≠ [] := by
  have hnormal := (reduce_normal h).1
  cases r with
  | tuple items =>
    obtain ⟨x, hx, -⟩ := hnormal.1
    exact List.ne_nil_of_mem hx
  | _ => exact List.cons_ne_nil _ _

theorem entries_of_asConst? {r : Expr} (h : r.asConst?.isSome = true) : r.entries = [r] := by
  cases r <;> first | rfl | cases h

theorem isSome_constants? (rs : List Expr) :
    (constants? rs).isSome = rs.all fun r => r.asConst?.isSome := by
  induction rs with
  | nil => rfl
  | cons r rest ih =>
    rw [List.all_cons, ← ih]
    simp only [constants?, List.mapM_cons]
    cases r.asConst? with
    | none => rfl
    | some v => cases rest.mapM asConst? <;> rfl

theorem eq_map_const {rs : List Expr} {vs : List Value} (h : constants? rs = some vs) :
    rs = vs.map const := by
  induction rs generalizing vs with
  | nil =>
    cases h
    rfl
  | cons r rest ih =>
    obtain ⟨v, ws, rfl, hws, rfl⟩ := constants?_cons h
    rw [List.map_cons, ← ih hws]

theorem all_reducesToConst (h : List.Forall₂ ReducesTo items rs) :
    items.all Expr.reducesToConst = (constants? rs).isSome := by
  rw [isSome_constants?]
  induction h with
  | nil => rfl
  | cons he _ ih => rw [List.all_cons, List.all_cons, ih, he.reducesToConst]

end Expr

/-- The text of a tuple from those of its items: a constant one is a single entry. -/
def tupleText (constant : Bool) (suffix : String) (texts : List String) : String :=
  if constant then "(" ++ commaList texts ++ ")" ++ suffix else commaList (texts.map (· ++ suffix))

namespace Target

def itemwise (compile : Expr → Binder String) (items : List Expr) : Binder String := do
  return commaList (← items.mapM compile)

variable {t : Target} {items rs : List Expr}

/-! ## One expression -/

theorem projection_of_reducesTo {e r : Expr} (h : e.ReducesTo r) :
    t.projection e = t.render r := by
  rw [projection, reduced, h]
  rfl

theorem ordering_of_reducesTo {e r : Expr} (h : e.ReducesTo r) (d : Direction) :
    t.ordering d e = t.renderOrdering d r := by
  rw [ordering, reduced, h]
  rfl

theorem renderOrdering_eq_entries (d : Direction) (r : Expr) :
    t.renderOrdering d r =
      do return commaList ((← r.entries.mapM t.render).map (· ++ d.suffix)) := by
  cases r with
  | tuple items =>
    rw [renderOrdering, renderAll_eq_mapM]
    rfl
  | _ => simp [renderOrdering, Expr.entries, commaList]

theorem render_eq_entries (r : Expr) :
    t.render r = do return commaList (← r.entries.mapM t.render) := by
  cases r with
  | tuple items =>
    rw [render, renderAll_eq_mapM]
    rfl
  | _ => simp [Expr.entries, commaList]

/-- Ascending is what a sort is without a word for it. -/
theorem ordering_ascending (t : Target) (e : Expr) : t.ordering .ascending e = t.projection e := by
  rw [ordering, projection]
  congr 1
  funext r
  rw [renderOrdering_eq_entries, render_eq_entries r]
  simp [Direction.suffix]

/-! ## A tuple -/

/-- A tuple is compiled by rendering its items one after the other. -/
theorem ordering_tuple (h : List.Forall₂ Expr.ReducesTo items rs) (d : Direction) :
    t.ordering d (.tuple items) = do
      let texts ← rs.mapM t.render
      return tupleText (Expr.constants? rs).isSome d.suffix texts := by
  have hreduce : (Expr.tuple items).ReducesTo (Expr.reduceTuple rs) := by
    rw [Expr.ReducesTo, Expr.reduce, Expr.reduceAll_of_forall₂ h]
    rfl
  rw [ordering_of_reducesTo hreduce, Expr.reduceTuple]
  cases hconst : Expr.constants? rs with
  | none => exact renderOrdering_eq_entries d (.tuple rs)
  | some vs =>
    have hrender : (vs.map Expr.const).mapM t.render = vs.mapM t.renderValue := by
      rw [List.mapM_map]
      rfl
    rw [Expr.eq_map_const hconst, hrender, ← renderValues_eq_mapM]
    simp [renderOrdering, render, renderValue, tupleText]

theorem mapM_of_reducesTo {f g : Expr → Binder String}
    (hfg : ∀ {e r : Expr}, e.ReducesTo r → f e = g r)
    (h : List.Forall₂ Expr.ReducesTo items rs) : items.mapM f = rs.mapM g := by
  induction h with
  | nil => rfl
  | cons he _ ih => rw [List.mapM_cons, List.mapM_cons, ih, hfg he]

/-- Where each item compiles by itself, they reduce and render together. -/
theorem exists_entries {p : Parameters}
    (h : ∀ e ∈ items, ∃ text q, (t.projection e).exec p = (.ok text, q)) :
    ∃ rs yss q, List.Forall₂ Expr.ReducesTo items rs ∧
      (rs.mapM fun r : Expr => r.entries.mapM t.render).exec p = (.ok yss, q) := by
  have hrender : ∀ e ∈ items, ∃ r, e.ReducesTo r ∧
      ∀ p, ∃ ys q, (r.entries.mapM t.render).exec p = (.ok ys, q) := by
    intro e he
    obtain ⟨text, q, hx⟩ := h e he
    obtain ⟨r, p', hr, hx⟩ := Binder.exec_bind_eq_ok hx
    have hreduce : e.ReducesTo r := by
      unfold reduced at hr
      split at hr <;> cases hr
      assumption
    refine ⟨r, hreduce, fun p => ?_⟩
    obtain ⟨text, q, hx⟩ := (t.render_relocatable r).exec_ok hx p
    rw [render_eq_entries] at hx
    obtain ⟨ys, q, hys, -⟩ := Binder.exec_bind_eq_ok hx
    exact ⟨ys, q, hys⟩
  choose! reduct hreduce hexec using hrender
  have hall : ∀ r ∈ items.map reduct, ∀ p, ∃ ys q,
      (r.entries.mapM t.render).exec p = (.ok ys, q) := by
    simpa using hexec
  obtain ⟨yss, q, hyss⟩ := Binder.exists_exec_mapM hall p
  refine ⟨items.map reduct, yss, q, ?_, hyss⟩
  exact List.forall₂_map_right_iff.2 (List.forall₂_same.2 hreduce)

end Target

/-! ## Where the texts agree -/

/-- The texts are those of the entries that an expression is in a list. -/
structure Expr.Lists (e : Expr) (texts : List String) : Prop where
  ne_nil : texts ≠ []
  single : e.reducesToConst = true → texts.length = 1
  several : e.reducesToSeveral = decide (1 < texts.length)

section Texts

variable {items : List Expr} {yss : List (List String)}

theorem lists_of_forall₂ (h : List.Forall₂ Expr.Lists items yss) :
    (∀ e ∈ items, ∃ ys ∈ yss, e.Lists ys) ∧ ∀ ys ∈ yss, ∃ e ∈ items, e.Lists ys := by
  induction h with
  | nil => exact ⟨List.forall_mem_nil _, List.forall_mem_nil _⟩
  | @cons e ys items yss he _ ih =>
    refine ⟨List.forall_mem_cons.2 ⟨⟨ys, List.mem_cons_self, he⟩, fun x hx => ?_⟩,
      List.forall_mem_cons.2 ⟨⟨e, List.mem_cons_self, he⟩, fun zs hzs => ?_⟩⟩
    · obtain ⟨zs, hzs, hx⟩ := ih.1 x hx
      exact ⟨zs, List.mem_cons_of_mem _ hzs, hx⟩
    · obtain ⟨x, hx, hzs⟩ := ih.2 zs hzs
      exact ⟨x, List.mem_cons_of_mem _ hx, hzs⟩

theorem exists_mem_several (h : List.Forall₂ Expr.Lists items yss) :
    (∃ e ∈ items, e.reducesToSeveral = true) ↔ ∃ ys ∈ yss, 1 < ys.length := by
  constructor
  · rintro ⟨e, he, hseveral⟩
    obtain ⟨ys, hys, hlists⟩ := (lists_of_forall₂ h).1 e he
    rw [hlists.several] at hseveral
    exact ⟨ys, hys, of_decide_eq_true hseveral⟩
  · rintro ⟨ys, hys, hlong⟩
    obtain ⟨e, he, hlists⟩ := (lists_of_forall₂ h).2 ys hys
    exact ⟨e, he, hlists.several.trans (decide_eq_true hlong)⟩

/-- Single entries take a suffix as the list does. -/
theorem map_commaList_suffix (h : ∀ ys ∈ yss, ys.length = 1) (suffix : String) :
    (yss.map fun ys => commaList (ys.map (· ++ suffix))) =
      (yss.map commaList).map (· ++ suffix) := by
  rw [List.map_map]
  refine List.map_congr_left fun ys hys => ?_
  obtain ⟨y, rfl⟩ := List.length_eq_one_iff.1 (h ys hys)
  simp [commaList]

theorem Direction.length_suffix_pos {d : Direction} (h : d ≠ .ascending) : 0 < d.suffix.length := by
  cases d with
  | ascending => exact absurd rfl h
  | descending => decide

/-- A constant tuple is never written like its items: its parentheses are two characters, and no
number of directions is as long. -/
theorem tupleText_const_ne (h : List.Forall₂ Expr.Lists items yss)
    (hconst : items.all Expr.reducesToConst = true) (d : Direction) :
    tupleText true d.suffix (yss.map commaList) ≠
      commaList (yss.map fun ys => commaList (ys.map (· ++ d.suffix))) := by
  have hsingle : ∀ ys ∈ yss, ys.length = 1 := by
    intro ys hys
    obtain ⟨e, he, hlists⟩ := (lists_of_forall₂ h).2 ys hys
    exact hlists.single (List.all_eq_true.1 hconst e he)
  rw [map_commaList_suffix hsingle]
  intro heq
  have hlen := congrArg String.length heq
  have hopen : ("(" : String).length = 1 := rfl
  have hclose : (")" : String).length = 1 := rfl
  simp only [tupleText, if_true, String.length_append, length_commaList_suffix, List.length_map,
    hopen, hclose] at hlen
  cases d with
  | ascending =>
    have hsuffix : Direction.ascending.suffix.length = 0 := rfl
    rw [hsuffix] at hlen
    omega
  | descending =>
    have hsuffix : Direction.descending.suffix.length = 5 := rfl
    rw [hsuffix] at hlen
    omega

/-- The direction after each item is the direction after each entry if no item has several. -/
theorem tupleText_eq_iff (h : List.Forall₂ Expr.Lists items yss) (d : Direction) :
    tupleText false d.suffix (yss.map commaList) =
      commaList (yss.map fun ys => commaList (ys.map (· ++ d.suffix))) ↔
    d = .ascending ∨ ∀ e ∈ items, e.reducesToSeveral = false := by
  have hpos : ∀ ys ∈ yss, 0 < ys.length := by
    intro ys hys
    obtain ⟨e, -, hlists⟩ := (lists_of_forall₂ h).2 ys hys
    exact List.length_pos_iff.2 hlists.ne_nil
  constructor
  · intro heq
    by_contra hnot
    obtain ⟨hd, hseveral⟩ := not_or.1 hnot
    obtain ⟨ys, hys, hlong⟩ := (exists_mem_several h).1 (by simpa using hseveral)
    have hsuffix := Direction.length_suffix_pos hd
    have hentries : ∀ ys : List String, (commaList (ys.map (· ++ d.suffix))).length =
        (commaList ys).length + ys.length * d.suffix.length := length_commaList_suffix d.suffix
    -- An item with several entries makes the text of the entries longer.
    have hlt : (commaList (yss.map fun ys => commaList ys ++ d.suffix)).length <
        (commaList (yss.map fun ys => commaList (ys.map (· ++ d.suffix)))).length := by
      refine length_commaList_map_lt (fun ys hys => ?_) ⟨ys, hys, ?_⟩
      · have hle := Nat.mul_le_mul_right d.suffix.length (hpos ys hys)
        rw [hentries, String.length_append]
        omega
      · have hlt := (Nat.mul_lt_mul_right hsuffix).2 hlong
        rw [hentries, String.length_append]
        omega
    rw [← heq] at hlt
    simp [tupleText, Function.comp_def] at hlt
  · rintro (rfl | hnone)
    · simp [tupleText, Direction.suffix, Function.comp_def]
    · have hsingle : ∀ ys ∈ yss, ys.length = 1 := by
        intro ys hys
        have hshort : ¬ 1 < ys.length := by
          intro hlong
          obtain ⟨e, he, hseveral⟩ := (exists_mem_several h).2 ⟨ys, hys, hlong⟩
          rw [hnone e he] at hseveral
          cases hseveral
        have := hpos ys hys
        omega
      rw [map_commaList_suffix hsingle]
      rfl

end Texts

namespace Target

variable {t : Target} {items : List Expr} {p : Parameters}

theorem lists_of_exec {e r : Expr} {ys : List String} (hr : e.ReducesTo r)
    (hys : ∃ p q, (r.entries.mapM t.render).exec p = (.ok ys, q)) : e.Lists ys := by
  obtain ⟨p, q, hexec⟩ := hys
  have hlength := (Binder.forall₂_of_exec_mapM hexec).length_eq
  refine ⟨?_, fun hconst => ?_, ?_⟩
  · rintro rfl
    exact hr.entries_ne_nil (List.length_eq_zero_iff.1 hlength)
  · rw [hr.reducesToConst] at hconst
    rw [← hlength, Expr.entries_of_asConst? hconst]
    rfl
  · rw [hr.reducesToSeveral, hlength]

/-- Where each item compiles by itself, there are texts of all entries of which the texts of the
items and of the tuple are made. -/
theorem exists_texts (h : ∀ e ∈ items, ∃ text q, (t.projection e).exec p = (.ok text, q)) :
    ∃ yss q, List.Forall₂ Expr.Lists items yss ∧
      (items.mapM t.projection).exec p = (.ok (yss.map commaList), q) ∧
      ∀ d : Direction,
        (items.mapM (t.ordering d)).exec p =
          (.ok (yss.map fun ys => commaList (ys.map (· ++ d.suffix))), q) ∧
        (t.ordering d (.tuple items)).exec p =
          (.ok (tupleText (items.all Expr.reducesToConst) d.suffix (yss.map commaList)), q) := by
  obtain ⟨rs, yss, q, hreduce, hexec⟩ := exists_entries h
  have hprojection : (rs.mapM t.render).exec p = (.ok (yss.map commaList), q) := by
    rw [funext (render_eq_entries (t := t))]
    exact Binder.exec_mapM_map commaList hexec
  have hlists : List.Forall₂ Expr.Lists items yss := by
    have hentries := Binder.forall₂_of_exec_mapM hexec
    clear hexec hprojection h
    induction hreduce generalizing yss with
    | nil =>
      cases hentries
      exact .nil
    | cons he _ ih =>
      cases hentries with
      | cons hys hrest => exact .cons (lists_of_exec he hys) (ih _ hrest)
  refine ⟨yss, q, hlists, ?_, fun d => ⟨?_, ?_⟩⟩
  · rw [mapM_of_reducesTo projection_of_reducesTo hreduce]
    exact hprojection
  · rw [mapM_of_reducesTo (ordering_of_reducesTo · d) hreduce,
      funext (renderOrdering_eq_entries (t := t) d)]
    exact Binder.exec_mapM_map _ hexec
  · rw [ordering_tuple hreduce, Binder.exec_bind_ok hprojection, Expr.all_reducesToConst hreduce]
    rfl

/-- **A tuple is compiled item by item, with two exceptions.** Let each item compile by itself. Then
the tuple binds what its items bind, and its text is made of theirs. A projection writes what the
items written one after the other are, if and only if some item is not constant. So does a sort in
ascending order; in descending order moreover no item may be left as a tuple of several. -/
theorem compile_tuple (h : ∀ e ∈ items, ∃ text q, (t.projection e).exec p = (.ok text, q)) :
    (∃ texts q, (items.mapM t.projection).exec p = (.ok texts, q) ∧
      ∀ d : Direction, (t.ordering d (.tuple items)).exec p =
        (.ok (tupleText (items.all Expr.reducesToConst) d.suffix texts), q)) ∧
    ((t.projection (.tuple items)).exec p = (itemwise t.projection items).exec p ↔
      ∃ e ∈ items, e.reducesToConst = false) ∧
    ∀ d : Direction,
      (t.ordering d (.tuple items)).exec p = (itemwise (t.ordering d) items).exec p ↔
        (∃ e ∈ items, e.reducesToConst = false) ∧
          (d = .ascending ∨ ∀ e ∈ items, e.reducesToSeveral = false) := by
  obtain ⟨yss, q, hlists, hprojection, hordering⟩ := exists_texts h
  have hnot : (∃ e ∈ items, e.reducesToConst = false) ↔
      items.all Expr.reducesToConst = false := by simp
  have hsort : ∀ d : Direction,
      (t.ordering d (.tuple items)).exec p = (itemwise (t.ordering d) items).exec p ↔
        (∃ e ∈ items, e.reducesToConst = false) ∧
          (d = .ascending ∨ ∀ e ∈ items, e.reducesToSeveral = false) := by
    intro d
    obtain ⟨hitems, htuple⟩ := hordering d
    rw [htuple, itemwise, Binder.exec_bind_ok hitems, Binder.exec_pure, Prod.mk.injEq,
      Except.ok.injEq, hnot]
    cases hconst : items.all Expr.reducesToConst with
    | true => simpa using tupleText_const_ne hlists hconst d
    | false => simpa using tupleText_eq_iff hlists d
  refine ⟨⟨_, q, hprojection, fun d => (hordering d).2⟩, ?_, hsort⟩
  have hascending := hsort .ascending
  rw [ordering_ascending, funext (ordering_ascending t)] at hascending
  simpa using hascending

/-- A column beside a constant and a tuple: the constant gets a direction too, but in descending
order the tuple has one for its two columns. -/
theorem compile_tuple_nested :
    let people : Table := ⟨"Person", "Person", [{ name := "Name", ty := .string },
      { name := "Id", ty := .integer }]⟩
    let nested : Expr := .tuple [people.col "Name", people.col "Id"]
    let items : List Expr := [people.col "Id", .const (.int 5), nested]
    let t : Target := { dialect := .sqlite }
    (∀ e ∈ items, ∃ text q, (t.projection e).exec {} = (.ok text, q)) ∧
      (t.projection (.tuple items)).exec {} = (itemwise t.projection items).exec {} ∧
      (t.ordering .descending (.tuple items)).exec {} ≠
        (itemwise (t.ordering .descending) items).exec {} := by
  intro people nested items t
  have hitems : ∀ e ∈ items, ∃ text q, (t.projection e).exec {} = (.ok text, q) := by
    simp only [items, List.forall_mem_cons, List.not_mem_nil, false_implies, implies_true, and_true]
    exact ⟨⟨_, _, rfl⟩, ⟨_, _, rfl⟩, ⟨_, _, rfl⟩⟩
  obtain ⟨-, hprojection, hordering⟩ := compile_tuple hitems
  refine ⟨hitems, hprojection.2 ⟨_, List.mem_cons_self, rfl⟩, fun heq => ?_⟩
  rcases ((hordering .descending).1 heq).2 with hd | hseveral
  · cases hd
  · have := hseveral nested (by simp [items])
    cases this

/-- Two constants are one entry between parentheses, and of two columns that are one item only the
second is sorted in descending order. -/
theorem tuple_not_itemwise :
    let people : Table := ⟨"Person", "Person", [{ name := "Name", ty := .string },
      { name := "Id", ty := .integer }]⟩
    let constants : List Expr := [.const (.int 1), .const (.int 2)]
    let columns : List Expr := [.tuple [people.col "Name", people.col "Id"], people.col "Name"]
    let t : Target := {}
    ((t.projection (.tuple constants)).exec {}).1 = .ok "(@p0, @p1)" ∧
      ((itemwise t.projection constants).exec {}).1 = .ok "@p0, @p1" ∧
      ((t.ordering .descending (.tuple columns)).exec {}).1 =
        .ok "Person.Name, Person.Id DESC, Person.Name DESC" ∧
      ((itemwise (t.ordering .descending) columns).exec {}).1 =
        .ok "Person.Name DESC, Person.Id DESC, Person.Name DESC" :=
  ⟨rfl, rfl, rfl, rfl⟩

end Target

end SqlCompose
