/-
The ways in which clauses change before the statement is made.

An edit puts a text into a slot, sets a limit on the rows or a flag. It belongs to one
clause, leaves the others alone and does not look at them, so the clauses after a list of
edits depend, clause by clause, on the edits of that clause only (`Clauses.edit_congr`).
Texts are of any type `τ`: strings here, and texts with holes where names of parameters
matter.
-/
import SqlCompose.Proofs.Standing

namespace SqlCompose

inductive Edit (τ : Type) where
  | put (slot : Slot) (text : τ)
  | window (text : τ)
  | ending (text : String)
  | top (n : UInt64)
  | count
  | distinct

namespace Edit

variable {σ τ : Type}

def map (f : σ → τ) : Edit σ → Edit τ
  | put slot text => put slot (f text)
  | window text => window (f text)
  | ending text => ending text
  | top n => top n
  | count => count
  | distinct => distinct

/-- The clause an edit belongs to. Limits go with the row window, flags with no clause. -/
def buffer? : Edit τ → Option Buffer
  | put slot _ => some slot.buffer
  | window _ | ending _ | top _ => some .rowWindow
  | count | distinct => none

@[simp] theorem buffer?_map (f : σ → τ) (e : Edit σ) : (e.map f).buffer? = e.buffer? := by
  cases e <;> rfl

def apply : Edit String → Clauses → Clauses
  | put slot text, c => slot.put text c
  | window text, c => { c with rowWindow := text }
  | ending text, c => { c with ending := text }
  | top n, c => { c with format := { c.format with top := some n } }
  | count, c => { c with format := { c.format with count := true } }
  | distinct, c => { c with format := { c.format with distinct := true } }

end Edit

namespace Clauses

def edit (c : Clauses) (edits : List (Edit String)) : Clauses := edits.foldl (fun c e => e.apply c) c

@[simp] theorem edit_nil (c : Clauses) : c.edit [] = c := rfl

@[simp] theorem edit_cons (c : Clauses) (e : Edit String) (edits : List (Edit String)) :
    c.edit (e :: edits) = (e.apply c).edit edits := rfl

/-! ## One clause at a time -/

/-- What belongs to one clause, and nothing else. -/
def only (b : Buffer) (c : Clauses) : Clauses :=
  match b with
  | .columns => { table := "", source := "", columns := c.columns }
  | .source => { table := "", source := c.source }
  | .filter => { table := "", source := "", filter := c.filter }
  | .rowWindow =>
    { table := "", source := "", rowWindow := c.rowWindow, ending := c.ending,
      format := { top := c.format.top } }
  | .groupBy => { table := "", source := "", groupBy := c.groupBy }
  | .having => { table := "", source := "", having := c.having }
  | .orderBy => { table := "", source := "", orderBy := c.orderBy }

/-- Nothing belongs to the clauses but what belongs to one of them, the table and the flags. -/
theorem eq_of_only {c c' : Clauses} (h : ∀ b, c.only b = c'.only b) (htable : c.table = c'.table)
    (hcount : c.format.count = c'.format.count)
    (hdistinct : c.format.distinct = c'.format.distinct) : c = c' := by
  have hcolumns := congrArg columns (h .columns)
  have hsource := congrArg source (h .source)
  have hfilter := congrArg filter (h .filter)
  have hwindow := congrArg rowWindow (h .rowWindow)
  have hending := congrArg ending (h .rowWindow)
  have htop := congrArg (·.format.top) (h .rowWindow)
  have hgroup := congrArg groupBy (h .groupBy)
  have hhaving := congrArg having (h .having)
  have horder := congrArg orderBy (h .orderBy)
  obtain ⟨_, _, _, _, _, _, _, _, ⟨_, _, _⟩, _⟩ := c
  obtain ⟨_, _, _, _, _, _, _, _, ⟨_, _, _⟩, _⟩ := c'
  simp only [only] at hcolumns hsource hfilter hwindow hending htop hgroup hhaving horder
  simp only at htable hcount hdistinct
  subst hcolumns hsource hfilter hwindow hending htop hgroup hhaving horder htable hcount hdistinct
  rfl

/-- An edit leaves the clauses alone that it does not belong to. -/
theorem only_apply_of_ne {b : Buffer} {e : Edit String} (h : e.buffer? ≠ some b) (c : Clauses) :
    (e.apply c).only b = c.only b := by
  cases e with
  | put slot text =>
    cases slot <;> cases b <;> first | exact absurd rfl h | rfl
  | _ => cases b <;> first | exact absurd rfl h | rfl

/-- An edit does not look at other clauses than its own. -/
theorem only_apply_congr {b : Buffer} {c c' : Clauses} (h : c.only b = c'.only b)
    (e : Edit String) : (e.apply c).only b = (e.apply c').only b := by
  by_cases hb : e.buffer? = some b
  · have honly : ∀ c : Clauses, (e.apply c).only b = (e.apply (c.only b)).only b := by
      intro c
      cases e with
      | put slot text => cases slot <;> cases hb <;> rfl
      | _ => cases hb <;> rfl
    rw [honly c, honly c', h]
  · rw [only_apply_of_ne hb, only_apply_of_ne hb, h]

/-- Only the edits of a clause matter to it. -/
theorem only_edit (b : Buffer) (edits : List (Edit String)) {c c' : Clauses}
    (h : c.only b = c'.only b) :
    (c.edit edits).only b = (c'.edit (edits.filter (·.buffer? = some b))).only b := by
  induction edits generalizing c c' with
  | nil => exact h
  | cons e edits ih =>
    by_cases hb : e.buffer? = some b
    · rw [List.filter_cons_of_pos (by simpa using hb), edit_cons, edit_cons]
      exact ih (only_apply_congr h e)
    · rw [List.filter_cons_of_neg (by simpa using hb), edit_cons]
      exact ih (by rw [only_apply_of_ne hb, h])

theorem table_edit (edits : List (Edit String)) (c : Clauses) : (c.edit edits).table = c.table := by
  induction edits generalizing c with
  | nil => rfl
  | cons e edits ih =>
    rw [edit_cons, ih]
    cases e with
    | put slot text => cases slot <;> rfl
    | _ => rfl

theorem flags_edit (edits : List (Edit String)) (c : Clauses) :
    ((c.edit edits).format.count = true ↔ c.format.count = true ∨ .count ∈ edits) ∧
      ((c.edit edits).format.distinct = true ↔ c.format.distinct = true ∨ .distinct ∈ edits) := by
  induction edits generalizing c with
  | nil => simp
  | cons e edits ih =>
    rw [edit_cons, (ih _).1, (ih _).2]
    cases e with
    | put slot text => cases slot <;> simp [Edit.apply, Slot.put, addColumn, addFilter, addGroupBy,
        addHaving, addOrderBy, addJoin]
    | _ => simp [Edit.apply]

/-- **The order of edits matters inside a clause only.** -/
theorem edit_congr {edits edits' : List (Edit String)}
    (h : ∀ b, edits.filter (·.buffer? = some b) = edits'.filter (·.buffer? = some b))
    (hcount : .count ∈ edits ↔ .count ∈ edits') (hdistinct : .distinct ∈ edits ↔ .distinct ∈ edits')
    (c : Clauses) : c.edit edits = c.edit edits' := by
  have hflags := c.flags_edit edits
  have hflags' := c.flags_edit edits'
  refine eq_of_only (fun b => ?_) ?_ ?_ ?_
  · rw [only_edit b edits rfl, h b, ← only_edit b edits' rfl]
  · rw [table_edit, table_edit]
  · rw [Bool.eq_iff_iff, hflags.1, hflags'.1, hcount]
  · rw [Bool.eq_iff_iff, hflags.2, hflags'.2, hdistinct]

end Clauses

end SqlCompose
