/-
What WHERE and HAVING say.

The terms of a condition are joined from left to right, whatever AND and OR would bind,
and the row window limits the whole of them, whenever it was set. `Condition.Writes` ties
the text that is built up term by term to the tree it stands for: from the third term on,
what is there goes into parentheses, as `Tree.tokens` writes it. So the clauses of the
statement have one reading, which is that tree (`Clauses.assemble_conditions`).
-/
import SqlCompose.Proofs.Edits
import SqlCompose.Proofs.Precedence

namespace SqlCompose

/-! ## Terms -/

namespace Edit

def filterTerm? : Edit String → Option (Connective × String)
  | put (.filter c) text => some (c, text)
  | _ => none

/-- The term that is added to HAVING; all of them are joined by AND. -/
def havingTerm? : Edit String → Option (Connective × String)
  | put .having text => some (.and, text)
  | _ => none

def window? : Edit String → Option String
  | window text => some text
  | _ => none

end Edit

/-- The window that was set last, if it is not blank. -/
def lastWindow (edits : List (Edit String)) : Option String :=
  (edits.filterMap Edit.window?).getLast?.filter (!isBlank ·)

namespace Condition

def extend (c : Condition) (terms : List (Connective × String)) : Condition :=
  terms.foldl (fun c x => c.combine x.1 x.2) c

/-- The text is that of the tree, and the count says whether it needs parentheses. -/
structure Writes (c : Condition) (t : Tree String) : Prop where
  text : c.text = t.text
  terms : c.terms = 1 ∧ t.isLeaf = true ∨ 1 < c.terms ∧ t.isLeaf = false
  visible : isBlank c.text = false

theorem writes_first {term : String} (h : isBlank term = false) (connective : Connective) :
    (combine {} connective term).Writes (.leaf term) where
  text := (Tree.text_leaf term).symm
  terms := .inl ⟨rfl, rfl⟩
  visible := h

/-- One more term is joined to all that is there. -/
theorem Writes.combine {c : Condition} {t : Tree String} (h : c.Writes t) (connective : Connective)
    {term : String} (hterm : isBlank term = false) :
    (c.combine connective term).Writes (.node connective t (.leaf term)) := by
  have htext : (c.combine connective term).text = (Tree.node connective t (.leaf term)).text := by
    rw [Tree.text_node_leaf, ← h.text]
    unfold Condition.combine
    rcases h.terms with ⟨hone, hleaf⟩ | ⟨hmore, hnode⟩
    · rw [hone, hleaf]
      rfl
    · obtain ⟨n, hn⟩ : ∃ n, c.terms = n + 2 := ⟨c.terms - 2, by omega⟩
      rw [hn, hnode]
      simp [String.append_assoc]
  refine ⟨htext, .inr ⟨?_, rfl⟩, ?_⟩
  · have hterms : (c.combine connective term).terms = c.terms + 1 := rfl
    have := h.terms
    omega
  · rw [htext, Tree.text_node_leaf, isBlank_append, hterm, Bool.and_false]

theorem Writes.extend {c : Condition} {t : Tree String} (h : c.Writes t) :
    ∀ {terms : List (Connective × String)}, (∀ x ∈ terms, isBlank x.2 = false) →
      (c.extend terms).Writes (terms.foldl (fun t x => .node x.1 t (.leaf x.2)) t)
  | [], _ => h
  | x :: rest, hterms => by
    have hx := h.combine x.1 (hterms x (by simp))
    exact hx.extend fun y hy => hterms y (by simp [hy])

/-- A condition without terms is empty; all others write the chain of their terms. -/
theorem extend_cases {terms : List (Connective × String)} (h : ∀ x ∈ terms, isBlank x.2 = false) :
    (extend {} terms = {} ∧ Tree.chain terms = none) ∨
      ∃ t, (extend {} terms).Writes t ∧ Tree.chain terms = some t := by
  cases terms with
  | nil => exact .inl ⟨rfl, rfl⟩
  | cons x rest =>
    have hfirst := writes_first (h x (by simp)) x.1
    exact .inr ⟨_, hfirst.extend fun y hy => h y (by simp [hy]), rfl⟩

end Condition

/-! ## Clauses -/

namespace Clauses

/-- A clause that says what the tree says, or no clause at all. -/
def written (keyword : String) : Option (Tree String) → String
  | none => ""
  | some t => " " ++ keyword ++ " " ++ t.text

/-- What follows the conditions of a statement. -/
def tail (c : Clauses) (order : Option String) : String :=
  (match c.sortBody order with
    | some sort => " ORDER BY " ++ sort
    | none => "") ++
  (if isBlank c.ending then "" else " " ++ c.ending)

theorem assemble_eq_tail (c : Clauses) (order : Option String) :
    c.assemble order =
      "SELECT " ++ c.format.apply c.columns ++ " FROM " ++ c.source ++ clause "WHERE" c.whereBody ++
        clause "GROUP BY" c.groupBy ++ clause "HAVING" c.having.text ++ c.tail order := by
  unfold assemble tail
  exact String.append_assoc

theorem edit_conditions (edits : List (Edit String)) (c : Clauses) :
    (c.edit edits).filter = c.filter.extend (edits.filterMap Edit.filterTerm?) ∧
      (c.edit edits).having = c.having.extend (edits.filterMap Edit.havingTerm?) := by
  induction edits generalizing c with
  | nil => exact ⟨rfl, rfl⟩
  | cons e edits ih =>
    obtain ⟨hfilter, hhaving⟩ := ih (e.apply c)
    rw [edit_cons, hfilter, hhaving]
    cases e with
    | put slot text => cases slot <;> exact ⟨rfl, rfl⟩
    | _ => exact ⟨rfl, rfl⟩

theorem rowWindow_edit (edits : List (Edit String)) (c : Clauses) :
    (c.edit edits).rowWindow = (edits.filterMap Edit.window?).getLast?.getD c.rowWindow := by
  induction edits generalizing c with
  | nil => rfl
  | cons e edits ih =>
    rw [edit_cons, ih]
    cases e with
    | put slot text => cases slot <;> rfl
    | window text =>
      rw [List.filterMap_cons_some (by rfl), List.getLast?_cons]
      rfl
    | _ => rfl

theorem clause_condition (keyword : String) {terms : List (Connective × String)}
    (h : ∀ x ∈ terms, isBlank x.2 = false) :
    clause keyword (Condition.extend {} terms).text = written keyword (Tree.chain terms) := by
  rcases Condition.extend_cases h with ⟨hc, ht⟩ | ⟨t, hw, ht⟩
  · rw [hc, ht]
    rfl
  · rw [ht, clause, hw.visible, hw.text]
    rfl

/-- The window is joined to the whole of the condition. -/
theorem clause_whereBody {c : Clauses} {terms : List (Connective × String)} {window : Option String}
    (hterms : ∀ x ∈ terms, isBlank x.2 = false) (hfilter : c.filter = Condition.extend {} terms)
    (hwindow : window = if isBlank c.rowWindow then none else some c.rowWindow) :
    clause "WHERE" c.whereBody = written "WHERE" (Tree.conjoin (Tree.chain terms) window) := by
  subst hwindow
  unfold whereBody
  rw [hfilter]
  cases hblank : isBlank c.rowWindow with
  | true => exact clause_condition "WHERE" hterms
  | false =>
    rcases Condition.extend_cases hterms with ⟨hc, ht⟩ | ⟨t, hw, ht⟩
    · simp [hc, ht, clause, hblank, Tree.conjoin, written]
    · have hbody : (Tree.node .and t (.leaf c.rowWindow)).text =
          if 1 < (Condition.extend {} terms).terms then
            "(" ++ (Condition.extend {} terms).text ++ ") AND " ++ c.rowWindow
          else (Condition.extend {} terms).text ++ " AND " ++ c.rowWindow := by
        rw [Tree.text_node_leaf, hw.text]
        rcases hw.terms with ⟨hone, hleaf⟩ | ⟨hmore, hnode⟩
        · simp [hone, hleaf, Connective.keyword, String.append_assoc]
        · simp [hmore, hnode, Connective.keyword, String.append_assoc]
      have hvisible : isBlank (Tree.node .and t (.leaf c.rowWindow)).text = false := by
        rw [Tree.text_node_leaf, isBlank_append, hblank, Bool.and_false]
      simp only [Bool.false_eq_true, if_false, hw.visible, ht, Tree.conjoin, written]
      rw [← hbody, clause, hvisible]
      rfl

/-- **Conditions read as their terms from left to right.** However clauses are made from fresh ones by
edits with terms that are not blank, WHERE stands for its terms joined from left to right, all of
them and the last window if there is one, HAVING for the conjunction of its terms, and a condition
that has nothing to say is left out. By the precedence of AND over OR the text has no other
reading. -/
theorem assemble_conditions (table source : String) (edits : List (Edit String))
    (hfilter : ∀ x ∈ edits.filterMap Edit.filterTerm?, isBlank x.2 = false)
    (hhaving : ∀ x ∈ edits.filterMap Edit.havingTerm?, isBlank x.2 = false)
    (order : Option String) :
    let c := edit { table := table, source := source } edits
    let filter := Tree.conjoin (Tree.chain (edits.filterMap Edit.filterTerm?)) (lastWindow edits)
    let having := Tree.chain (edits.filterMap Edit.havingTerm?)
    c.assemble order =
      "SELECT " ++ c.format.apply c.columns ++ " FROM " ++ c.source ++ written "WHERE" filter ++
        clause "GROUP BY" c.groupBy ++ written "HAVING" having ++ c.tail order ∧
    (∀ t, filter = some t → ∀ t', Reads .disjunction t.tokens t' ↔ t' = t) ∧
    ∀ t, having = some t → ∀ t', Reads .disjunction t.tokens t' ↔ t' = t := by
  intro c filter having
  refine ⟨?_, fun t _ t' => reads_tokens_iff t t', fun t _ t' => reads_tokens_iff t t'⟩
  obtain ⟨hf, hh⟩ := edit_conditions edits { table := table, source := source }
  have hwindow : lastWindow edits = if isBlank c.rowWindow then none else some c.rowWindow := by
    have hw : c.rowWindow = (edits.filterMap Edit.window?).getLast?.getD "" := rowWindow_edit _ _
    rw [hw, lastWindow]
    cases (edits.filterMap Edit.window?).getLast? with
    | none => rfl
    | some w => cases hb : isBlank w <;> simp [hb]
  have hwhere : clause "WHERE" c.whereBody = written "WHERE" filter :=
    clause_whereBody hfilter hf hwindow
  have hhavingText : clause "HAVING" c.having.text = written "HAVING" having := by
    rw [hh]
    exact clause_condition "HAVING" hhaving
  rw [assemble_eq_tail, hwhere, hhavingText]

/-- A term that is added after the window does not escape it. -/
theorem assemble_conditions_window_first :
    let edits : List (Edit String) :=
      [.put .column "x", .put (.filter .and) "a", .window "w", .put (.filter .or) "b",
        .put (.filter .and) "c", .put .having "d", .put .having "e"]
    let filter : Tree String :=
      .node .and (.node .and (.node .or (.leaf "a") (.leaf "b")) (.leaf "c")) (.leaf "w")
    let having : Tree String := .node .and (.leaf "d") (.leaf "e")
    (∀ x ∈ edits.filterMap Edit.filterTerm?, isBlank x.2 = false) ∧
    (∀ x ∈ edits.filterMap Edit.havingTerm?, isBlank x.2 = false) ∧
    (edit { table := "T", source := "T" } edits).assemble none =
      "SELECT x FROM T WHERE ((a OR b) AND c) AND w HAVING d AND e" ∧
    (∀ t', Reads .disjunction filter.tokens t' ↔ t' = filter) ∧
    ∀ t', Reads .disjunction having.tokens t' ↔ t' = having := by
  intro edits filter having
  have hf : ∀ x ∈ edits.filterMap Edit.filterTerm?, isBlank x.2 = false := by decide
  have hh : ∀ x ∈ edits.filterMap Edit.havingTerm?, isBlank x.2 = false := by decide
  obtain ⟨htext, hfilter, hhaving⟩ := assemble_conditions "T" "T" edits hf hh none
  exact ⟨hf, hh, htext.trans (by decide), hfilter filter (by decide), hhaving having (by decide)⟩

end Clauses

end SqlCompose
