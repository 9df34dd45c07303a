/-
Texts that stand in other texts: what a step writes is found again in its clause,
and what stands in a clause is found again in the statement.

`StandsIn` asks that no name goes on after the text, so that the name of one
parameter is never taken for the start of another. The relation is kept by every
way in which clauses are put together, as long as a condition without terms is
empty (`Clauses.Tidy`); only `COUNT(*)` in place of the columns drops a clause.
-/
import SqlCompose.Proofs.Lexing
import SqlCompose.Proofs.Steps

namespace SqlCompose

/-! ## Standing in a text -/

/-- Whether a name in front of the text would go on in it. -/
def continuesName (s : String) : Bool := s.toList.head?.any isNameChar

/-- `x` is part of `y`, and no name that ends `x` goes on after it. -/
def StandsIn (x y : String) : Prop :=
  ∃ before after, y = before ++ x ++ after ∧ continuesName after = false

theorem continuesName_append (s t : String) :
    continuesName (s ++ t) = if s = "" then continuesName t else continuesName s := by
  by_cases hs : s = ""
  · simp [hs]
  · rw [if_neg hs]
    cases h : s.toList with
    | nil => exact absurd (String.toList_eq_nil_iff.1 h) hs
    | cons c cs => simp [continuesName, h]

namespace StandsIn

variable {x y z : String}

theorem between (before x after : String) (h : continuesName after = false) :
    StandsIn x (before ++ x ++ after) := ⟨before, after, rfl, h⟩

theorem last (before x : String) : StandsIn x (before ++ x) := by
  simpa using between before x "" rfl

@[simp] theorem refl (x : String) : StandsIn x x := by simpa using last "" x

@[simp] theorem empty (y : String) : StandsIn "" y := by simpa using last y ""

theorem trans (h : StandsIn x y) (h' : StandsIn y z) : StandsIn x z := by
  obtain ⟨before, after, rfl, ha⟩ := h
  obtain ⟨before', after', rfl, ha'⟩ := h'
  refine ⟨before' ++ before, after ++ after', by simp [String.append_assoc], ?_⟩
  rw [continuesName_append]
  split <;> assumption

theorem prepend (h : StandsIn x y) (before : String) : StandsIn x (before ++ y) :=
  h.trans (last before y)

theorem append (h : StandsIn x y) {after : String} (ha : continuesName after = false) :
    StandsIn x (y ++ after) :=
  h.trans (by simpa using between "" y after ha)

theorem separate (h : StandsIn x y) (sep : String) (hs : sep ≠ "" ∧ continuesName sep = false)
    (z : String) : StandsIn x (y ++ sep ++ z) := by
  rw [String.append_assoc]
  refine h.append ?_
  rw [continuesName_append, if_neg hs.1, hs.2]

theorem isBlank (h : StandsIn x y) (hy : SqlCompose.isBlank y = true) :
    SqlCompose.isBlank x = true := by
  obtain ⟨before, after, rfl, -⟩ := h
  simp only [isBlank_append, Bool.and_eq_true] at hy
  exact hy.1.2

end StandsIn

/-! ## Clauses -/

/-- The clauses that steps write text into. -/
inductive Buffer where
  | columns
  | source
  | filter
  | rowWindow
  | groupBy
  | having
  | orderBy
  deriving DecidableEq, Repr

def Clauses.text (c : Clauses) : Buffer → String
  | .columns => c.columns
  | .source => c.source
  | .filter => c.filter.text
  | .rowWindow => c.rowWindow
  | .groupBy => c.groupBy
  | .having => c.having.text
  | .orderBy => c.orderBy

def Slot.buffer : Slot → Buffer
  | column => .columns
  | filter _ => .filter
  | groupBy => .groupBy
  | having => .having
  | orderBy => .orderBy
  | join _ _ => .source

/-- Conditions without terms are empty. -/
structure Clauses.Tidy (c : Clauses) : Prop where
  filter : c.filter.terms = 0 → c.filter.text = ""
  having : c.having.terms = 0 → c.having.text = ""

theorem standsIn_appendEntry (buffer entry : String) :
    StandsIn buffer (appendEntry buffer entry) ∧
      ∃ front, appendEntry buffer entry = front ++ entry := by
  unfold appendEntry
  split
  · next h =>
    rw [String.isEmpty_iff.1 h]
    exact ⟨.empty _, "", by simp⟩
  · exact ⟨(StandsIn.refl buffer).separate ", " (by decide) entry, _, rfl⟩

theorem Condition.standsIn_combine {c : Condition} (hc : c.terms = 0 → c.text = "")
    (connective : Connective) (term : String) :
    StandsIn c.text (c.combine connective term).text ∧
      ∃ front, (c.combine connective term).text = front ++ term := by
  unfold combine
  match hn : c.terms with
  | 0 =>
    rw [hc hn]
    exact ⟨.empty _, "", by simp⟩
  | 1 =>
    have h := (StandsIn.refl c.text).separate " " (by decide) connective.keyword
    exact ⟨h.separate " " (by decide) term, _, rfl⟩
  | n + 2 =>
    have h := (StandsIn.last "(" c.text).separate ") " (by decide) connective.keyword
    exact ⟨h.separate " " (by decide) term, _, rfl⟩

namespace Slot

/-- A slot keeps what its clause holds and puts the text at the end. -/
theorem standsIn_put (slot : Slot) (x : String) {c : Clauses} (hc : c.Tidy) :
    StandsIn (c.text slot.buffer) ((slot.put x c).text slot.buffer) ∧
      ∃ front, (slot.put x c).text slot.buffer = front ++ x := by
  cases slot with
  | column | groupBy | orderBy => exact standsIn_appendEntry _ _
  | filter connective => exact Condition.standsIn_combine hc.filter connective x
  | having => exact Condition.standsIn_combine hc.having .and x
  | join keyword table =>
    have h := (StandsIn.refl c.source).separate " " (by decide) keyword
    have h' := h.separate " " (by decide) table
    exact ⟨h'.separate " ON " (by decide) x, _, rfl⟩

theorem text_put_of_ne (slot : Slot) (x : String) (c : Clauses) {b : Buffer} (h : b ≠ slot.buffer) :
    (slot.put x c).text b = c.text b := by
  cases slot <;> cases b <;> first | exact absurd rfl h | rfl

theorem tidy_put (slot : Slot) (x : String) {c : Clauses} (hc : c.Tidy) : (slot.put x c).Tidy := by
  cases slot with
  | filter connective => exact ⟨fun h => absurd h (Nat.succ_ne_zero _), hc.having⟩
  | having => exact ⟨hc.filter, fun h => absurd h (Nat.succ_ne_zero _)⟩
  | _ => exact ⟨hc.filter, hc.having⟩

end Slot

/-! ## Statements -/

namespace Clauses

theorem standsIn_clause (keyword : String) {body : String} (h : isBlank body = false) :
    StandsIn body (clause keyword body) := by
  rw [clause, h]
  exact .last _ _

theorem continuesName_clause (keyword body : String) :
    continuesName (clause keyword body) = false := by
  unfold clause
  split
  · rfl
  · rw [String.append_assoc, String.append_assoc, continuesName_append]
    rfl

theorem standsIn_whereBody (c : Clauses) {b : Buffer} (hb : b = .filter ∨ b = .rowWindow)
    (h : isBlank (c.text b) = false) : StandsIn (c.text b) c.whereBody := by
  unfold whereBody
  rcases hb with rfl | rfl
  · simp only [text] at h ⊢
    simp only [h, Bool.false_eq_true, if_false]
    split
    · exact .refl _
    split
    · exact (StandsIn.last "(" _).separate ") AND " (by decide) _
    · exact (StandsIn.refl _).separate " AND " (by decide) _
  · simp only [text] at h ⊢
    simp only [h, Bool.false_eq_true, if_false]
    split
    · exact .refl _
    split <;> exact .last _ _

theorem standsIn_where (c : Clauses) {b : Buffer} (hb : b = .filter ∨ b = .rowWindow)
    (h : isBlank (c.text b) = false) : StandsIn (c.text b) (clause "WHERE" c.whereBody) := by
  have hw := c.standsIn_whereBody hb h
  refine hw.trans (standsIn_clause "WHERE" (Bool.eq_false_iff.2 fun hblank => ?_))
  rw [hw.isBlank hblank] at h
  cases h

/-- The statement ends with what it is sorted by, if anything, and the ending. -/
theorem assemble_eq (c : Clauses) (order : Option String) :
    ∃ sort ending, continuesName sort = false ∧ continuesName ending = false ∧
      (∀ x, c.sortBody order = some x → sort = " ORDER BY " ++ x) ∧
      c.assemble order = "SELECT " ++ c.format.apply c.columns ++ " FROM " ++ c.source ++
        clause "WHERE" c.whereBody ++ clause "GROUP BY" c.groupBy ++
        clause "HAVING" c.having.text ++ sort ++ ending := by
  have hending : continuesName (if isBlank c.ending then "" else " " ++ c.ending) = false := by
    split
    · rfl
    · rw [continuesName_append]
      rfl
  cases hsort : c.sortBody order with
  | none =>
    refine ⟨"", _, rfl, hending, fun x hx => ?_, ?_⟩
    · cases hx
    · unfold assemble
      rw [hsort]
  | some x =>
    have hx : continuesName (" ORDER BY " ++ x) = false := by
      rw [continuesName_append]
      rfl
    refine ⟨_, _, hx, hending, fun y hy => ?_, ?_⟩
    · cases hy
      rfl
    · unfold assemble
      rw [hsort]

/-- What stands in a clause stands in the statement, the columns apart where rows are counted. -/
theorem standsIn_assemble (c : Clauses) (order : Option String) {b : Buffer}
    (h : isBlank (c.text b) = false) (hcount : b = .columns → c.format.count = false) :
    StandsIn (c.text b) (c.assemble order) := by
  have hwhere := continuesName_clause "WHERE" c.whereBody
  have hgroup := continuesName_clause "GROUP BY" c.groupBy
  have hhaving := continuesName_clause "HAVING" c.having.text
  obtain ⟨sort, ending, hsort, hending, hsorted, heq⟩ := c.assemble_eq order
  rw [heq]
  -- After every clause the statement ends or a space follows.
  cases b with
  | columns =>
    have hc : StandsIn c.columns (c.format.apply c.columns) := by
      rw [SelectFormat.apply, hcount rfl]
      exact .last _ _
    have hfrom := (hc.prepend "SELECT ").separate " FROM " (by decide) c.source
    exact ((((hfrom.append hwhere).append hgroup).append hhaving).append hsort).append hending
  | source =>
    have hc := StandsIn.last ("SELECT " ++ c.format.apply c.columns ++ " FROM ") c.source
    exact ((((hc.append hwhere).append hgroup).append hhaving).append hsort).append hending
  | filter =>
    have hc := c.standsIn_where (.inl rfl) h
    exact ((((hc.prepend _).append hgroup).append hhaving).append hsort).append hending
  | rowWindow =>
    have hc := c.standsIn_where (.inr rfl) h
    exact ((((hc.prepend _).append hgroup).append hhaving).append hsort).append hending
  | groupBy =>
    have hc := standsIn_clause "GROUP BY" h
    exact (((hc.prepend _).append hhaving).append hsort).append hending
  | having =>
    have hc := standsIn_clause "HAVING" h
    exact ((hc.prepend _).append hsort).append hending
  | orderBy =>
    have hc : c.sortBody order = some c.orderBy := by
      simp only [text] at h
      simp [sortBody, h]
    rw [hsorted _ hc]
    exact ((StandsIn.last _ _).prepend _).append hending

end Clauses

end SqlCompose
