/-
Statements before their parameters have names.

A text is drafted if it is one template, spelled with whatever names. Names are never
blank, so whether a drafted text is blank does not depend on them, and with it neither
do the choices that are made when clauses are put together. So if the clauses are
drafted, the statement is (`Query.drafted_build`).
-/
import SqlCompose.Proofs.Ledger

namespace SqlCompose

/-! ## Names for holes -/

def Piece.spell (name : Nat → String) : Piece → String
  | text s => s
  | hole i => name i

namespace Template

def spell (name : Nat → String) : Template → String
  | [] => ""
  | x :: rest => x.spell name ++ spell name rest

@[simp] theorem spell_append (name : Nat → String) (T U : Template) :
    (T ++ U).spell name = T.spell name ++ U.spell name := by
  induction T with
  | nil => simp [spell]
  | cons x T ih => simp [spell, ih, String.append_assoc]

theorem spell_shift (name : Nat → String) (k : Nat) (T : Template) :
    (T.shift k).spell name = T.spell fun i => name (k + i) := by
  induction T with
  | nil => rfl
  | cons x T ih =>
    rw [shift] at ih
    cases x with
    | text s => simp [shift, spell, ih, Piece.shift, Piece.spell]
    | hole i => simp [shift, spell, ih, Piece.shift, Piece.spell, Nat.add_comm i k]

/-- Only the names of the holes matter. -/
theorem spell_congr {name name' : Nat → String} {T : Template}
    (h : ∀ i ∈ T.holes, name i = name' i) : T.spell name = T.spell name' := by
  induction T with
  | nil => rfl
  | cons x T ih =>
    cases x with
    | text s => rw [spell, spell, ih h]; rfl
    | hole j =>
      obtain ⟨hj, hT⟩ := List.forall_mem_cons.1 h
      rw [spell, spell, ih hT, Piece.spell, Piece.spell, hj]

end Template

/-- Names that can be seen. -/
structure Naming where
  name : Nat → String
  visible : ∀ i, isBlank (name i) = false

namespace Parameters

/-- The names that the table gives out next. -/
def upcoming (p : Parameters) : Naming where
  name i := key p.tag (p.size + i)
  visible _ := isBlank_key _ _

theorem name_upcoming_extend (p : Parameters) (vs : List Value) :
    (p.extend vs).upcoming.name = fun i => p.upcoming.name (vs.length + i) := by
  simp [upcoming, Nat.add_assoc]

end Parameters

theorem Template.fill_eq_spell (p : Parameters) (T : Template) :
    T.fill p.tag p.size = T.spell p.upcoming.name := by
  induction T with
  | nil => rfl
  | cons x T ih =>
    rw [fill, spell, ih]
    cases x <;> rfl

/-! ## Drafted texts -/

/-- The same, whatever the names. -/
def Fixed {α : Type} (x : Naming → α) : Prop := ∃ a, ∀ μ, x μ = a

theorem Fixed.map {α β : Type} {x : Naming → α} (h : Fixed x) (f : α → β) :
    Fixed fun μ => f (x μ) := by
  obtain ⟨a, h⟩ := h
  exact ⟨f a, fun μ => congrArg f (h μ)⟩

/-- One template with holes below `n`, whatever the names. -/
def Drafted (n : Nat) (x : Naming → String) : Prop :=
  ∃ T : Template, (∀ i ∈ T.holes, i < n) ∧ ∀ μ : Naming, x μ = T.spell μ.name

namespace Drafted

variable {n : Nat} {x y : Naming → String}

theorem const (s : String) : Drafted n fun _ => s :=
  ⟨[.text s], nofun, fun μ => by simp [Template.spell, Piece.spell]⟩

theorem append (hx : Drafted n x) (hy : Drafted n y) : Drafted n fun μ => x μ ++ y μ := by
  obtain ⟨T, hT, hx⟩ := hx
  obtain ⟨U, hU, hy⟩ := hy
  refine ⟨T ++ U, ?_, fun μ => by simp only [hx, hy, Template.spell_append]⟩
  rw [Template.holes_append]
  exact List.forall_mem_append.2 ⟨hT, hU⟩

/-- A template whose holes get the names from number `start` on. -/
theorem spell_from {T : Template} {start k : Nat} (hT : ∀ i ∈ T.holes, i < k)
    (h : start + k ≤ n) : Drafted n fun μ => T.spell fun i => μ.name (start + i) := by
  refine ⟨T.shift start, ?_, fun μ => (T.spell_shift μ.name start).symm⟩
  rw [Template.holes_shift]
  intro j hj
  obtain ⟨i, hi, rfl⟩ := List.mem_map.1 hj
  have := hT i hi
  omega

/-- A drafted text is blank or not, whatever the names. -/
theorem isBlank (hx : Drafted n x) : Fixed fun μ => isBlank (x μ) := by
  obtain ⟨T, -, hx⟩ := hx
  simp only [hx]
  clear hx
  induction T with
  | nil => exact ⟨_, fun _ => rfl⟩
  | cons piece T ih =>
    cases piece with
    | text s =>
      simpa only [Template.spell, isBlank_append, Piece.spell] using
        ih.map (SqlCompose.isBlank s && ·)
    | hole i =>
      refine ⟨false, fun μ => ?_⟩
      simp only [Template.spell, isBlank_append, Piece.spell, μ.visible, Bool.false_and]

theorem isEmpty (hx : Drafted n x) : Fixed fun μ => (x μ).isEmpty := by
  obtain ⟨T, -, hx⟩ := hx
  simp only [hx]
  clear hx
  have happend (s t : String) : (s ++ t).isEmpty = (s.isEmpty && t.isEmpty) := by
    rw [Bool.eq_iff_iff]
    simp [String.isEmpty_iff]
  induction T with
  | nil => exact ⟨_, fun _ => rfl⟩
  | cons piece T ih =>
    cases piece with
    | text s =>
      simpa only [Template.spell, happend, Piece.spell] using ih.map (s.isEmpty && ·)
    | hole i =>
      refine ⟨false, fun μ => ?_⟩
      have hname : (μ.name i).isEmpty = false := by
        rw [Bool.eq_false_iff, Ne, String.isEmpty_iff]
        intro hempty
        have := μ.visible i
        rw [hempty] at this
        cases this
      simp only [Template.spell, happend, Piece.spell, hname, Bool.false_and]

theorem ite {p : Naming → Bool} (hp : Fixed p) (hx : Drafted n x) (hy : Drafted n y) :
    Drafted n fun μ => if p μ then x μ else y μ := by
  obtain ⟨b, hp⟩ := hp
  simp only [hp]
  cases b with
  | true => exact hx
  | false => exact hy

theorem appendEntry (hx : Drafted n x) (hy : Drafted n y) :
    Drafted n fun μ => appendEntry (x μ) (y μ) :=
  ite hx.isEmpty hy ((hx.append (const ", ")).append hy)

theorem clause (keyword : String) (hx : Drafted n x) :
    Drafted n fun μ => Clauses.clause keyword (x μ) :=
  ite hx.isBlank (const "") ((const _).append hx)

theorem foldl_appendEntry (g : Field → String) (fields : List Field) (hx : Drafted n x) :
    Drafted n fun μ =>
      fields.foldl (fun columns f => SqlCompose.appendEntry columns (g f)) (x μ) := by
  induction fields generalizing x with
  | nil => exact hx
  | cons f fields ih => exact ih (hx.appendEntry (const (g f)))

theorem combine {c : Naming → Condition} (hterms : Fixed fun μ => (c μ).terms)
    (htext : Drafted n fun μ => (c μ).text) (connective : Connective) (hx : Drafted n x) :
    Drafted n fun μ => ((c μ).combine connective (x μ)).text := by
  obtain ⟨terms, hterms⟩ := hterms
  simp only [Condition.combine, hterms]
  match terms with
  | 0 => exact hx
  | 1 => exact (((htext.append (const " ")).append (const _)).append (const " ")).append hx
  | k + 2 =>
    have hgroup := ((const "(").append htext).append (const ") ")
    exact ((hgroup.append (const connective.keyword)).append (const " ")).append hx

end Drafted

/-! ## Drafted clauses -/

/-- What the texts of clauses are put together by. -/
structure Frame where
  filterTerms : Nat
  havingTerms : Nat
  format : SelectFormat
  ending : String

def Clauses.frame (c : Clauses) : Frame where
  filterTerms := c.filter.terms
  havingTerms := c.having.terms
  format := c.format
  ending := c.ending

/-- Clauses whose texts are drafted, and all else fixed. -/
structure DraftedClauses (n : Nat) (c : Naming → Clauses) : Prop where
  text : ∀ b, Drafted n fun μ => (c μ).text b
  frame : Fixed fun μ => (c μ).frame

namespace DraftedClauses

variable {n : Nat} {c : Naming → Clauses}

theorem const (c : Clauses) : DraftedClauses n fun _ => c := ⟨fun _ => .const _, _, fun _ => rfl⟩

/-- A drafted text can be put into any slot. -/
theorem put (h : DraftedClauses n c) (slot : Slot) {x : Naming → String} (hx : Drafted n x) :
    DraftedClauses n fun μ => slot.put (x μ) (c μ) where
  text b := by
    by_cases hb : b = slot.buffer
    · subst hb
      cases slot with
      | column => exact (h.text .columns).appendEntry hx
      | groupBy => exact (h.text .groupBy).appendEntry hx
      | orderBy => exact (h.text .orderBy).appendEntry hx
      | filter connective =>
        exact .combine (h.frame.map (·.filterTerms)) (h.text .filter) connective hx
      | having => exact .combine (h.frame.map (·.havingTerms)) (h.text .having) .and hx
      | join keyword table =>
        have hjoin := ((h.text .source).append (.const " ")).append (.const keyword)
        exact (((hjoin.append (.const " ")).append (.const table)).append (.const " ON ")).append hx
    · simpa only [slot.text_put_of_ne _ _ hb] using h.text b
  frame := by
    cases slot with
    | filter connective =>
      exact h.frame.map fun frame => { frame with filterTerms := frame.filterTerms + 1 }
    | having => exact h.frame.map fun frame => { frame with havingTerms := frame.havingTerms + 1 }
    | _ => exact h.frame

theorem whereBody (h : DraftedClauses n c) : Drafted n fun μ => (c μ).whereBody := by
  have hwindow := h.text .rowWindow
  have hfilter := h.text .filter
  have hmany := h.frame.map fun frame => decide (1 < frame.filterTerms)
  have hgroup := (((Drafted.const "(").append hfilter).append (.const ") AND ")).append hwindow
  have hboth := (hfilter.append (.const " AND ")).append hwindow
  have hbody := Drafted.ite hwindow.isBlank hfilter
    (.ite hfilter.isBlank hwindow (.ite hmany hgroup hboth))
  simp only [decide_eq_true_eq] at hbody
  exact hbody

theorem columns (h : DraftedClauses n c) : Drafted n fun μ => (c μ).format.apply (c μ).columns := by
  obtain ⟨format, hformat⟩ : Fixed fun μ => (c μ).format := h.frame.map (·.format)
  simp only [SelectFormat.apply, hformat]
  exact (Drafted.append (.const _) (.const _)).append
    (.ite ⟨_, fun _ => rfl⟩ (.const _) (h.text .columns))

theorem sort (h : DraftedClauses n c) (order : Option String) :
    Drafted n fun μ =>
      match (c μ).sortBody order with
      | some order => " ORDER BY " ++ order
      | none => "" := by
  obtain ⟨blank, hblank⟩ := (h.text .orderBy).isBlank
  obtain ⟨ending, hending⟩ : Fixed fun μ => (c μ).ending := h.frame.map (·.ending)
  simp only [Clauses.text] at hblank
  simp only [Clauses.sortBody, hblank, hending]
  cases blank with
  | false => exact (Drafted.const " ORDER BY ").append (h.text .orderBy)
  | true =>
    simp only [Bool.not_true, Bool.false_eq_true, if_false]
    exact .const _

theorem assemble (h : DraftedClauses n c) (order : Option String) :
    Drafted n fun μ => (c μ).assemble order := by
  obtain ⟨ending, hending⟩ : Fixed fun μ => (c μ).ending := h.frame.map (·.ending)
  have hhead := ((Drafted.const "SELECT ").append h.columns).append (.const " FROM ")
  have hsource := (hhead.append (h.text .source)).append (h.whereBody.clause "WHERE")
  have hgroup := hsource.append ((h.text .groupBy).clause "GROUP BY")
  have hhaving := hgroup.append ((h.text .having).clause "HAVING")
  simp only [Clauses.assemble, hending]
  exact (hhaving.append (h.sort order)).append (.const _)

end DraftedClauses

/-- **What a query builds is drafted if its clauses are.** -/
theorem Query.drafted_build {n : Nat} {q : Query} (hq : q.sql = none) {c : Naming → Clauses}
    (hc : DraftedClauses n c) : Drafted n fun μ => { q with clauses := c μ }.build.1 := by
  have hcolumns : DraftedClauses n fun μ => { q with clauses := c μ }.withColumns := by
    obtain ⟨blank, hblank⟩ := (hc.text .columns).isBlank
    simp only [Clauses.text] at hblank
    simp only [withColumns, hblank]
    cases blank with
    | false => exact hc
    | true =>
      simp only [Clauses.foldl_addColumn, if_true]
      refine ⟨fun b => ?_, hc.frame⟩
      by_cases hb : b = .columns
      · subst hb
        exact (hc.text .columns).foldl_appendEntry _ _
      · have h := hc.text b
        cases b with
        | columns => exact absurd rfl hb
        | _ => exact h
  simp only [build, hq]
  exact hcolumns.assemble _

end SqlCompose
