/-
Selecting nothing is selecting every column.

A query that is built with nothing selected lists the columns of its table. Selecting them all by a
step of its own writes the same list (`Target.exec_render_everyColumn`, `Query.Bare.withColumns`),
only earlier. In between, the two queries differ in their select lists and nowhere else
(`Query.Listing`), which no other step looks at, and building makes them one again. So the step can
stand anywhere before the statement is settled (`Session.run_select_all`).
-/
import SqlCompose.Expr.Build
import SqlCompose.Proofs.Contributions
import SqlCompose.Proofs.Idempotence

namespace SqlCompose

/-! ## Lists made entry by entry -/

theorem joinWith_cons_append (sep s t : String) (rest : List String) :
    joinWith sep ((s ++ sep ++ t) :: rest) = s ++ sep ++ joinWith sep (t :: rest) := by
  cases rest with
  | nil => rfl
  | cons u rest => simp [joinWith_cons_cons, String.append_assoc]

theorem foldl_appendEntry {α : Type} (g : α → String) (xs : List α) {buffer : String}
    (h : buffer ≠ "") :
    xs.foldl (fun buffer x => appendEntry buffer (g x)) buffer =
      commaList (buffer :: xs.map g) := by
  induction xs generalizing buffer with
  | nil => rfl
  | cons x xs ih =>
    have hentry : appendEntry buffer (g x) = buffer ++ ", " ++ g x := by
      simp [appendEntry, String.isEmpty_iff, h]
    have hne : buffer ++ ", " ++ g x ≠ "" := by simp
    rw [List.foldl_cons, hentry, ih hne]
    exact joinWith_cons_append ", " buffer (g x) (xs.map g)

theorem foldl_appendEntry_empty {α : Type} {g : α → String} (hg : ∀ x, g x ≠ "") (xs : List α) :
    xs.foldl (fun buffer x => appendEntry buffer (g x)) "" = commaList (xs.map g) := by
  cases xs with
  | nil => rfl
  | cons x xs => exact foldl_appendEntry g xs (hg x)

/-! ## All columns of a table -/

/-- All columns, in the order of the fields. -/
def Table.everyColumn (table : Table) : Expr := .tuple (table.fields.map fun f => table.col f.name)

namespace Target

variable (t : Target)

def columnList (table : Table) : String :=
  commaList (table.fields.map fun f => t.columnRef table.name f.name)

theorem isBlank_columnRef (table column : String) : isBlank (t.columnRef table column) = false := by
  have hpoint : isBlank "." = false := by decide
  simp [columnRef, isBlank_append, hpoint]

theorem columnRef_ne_empty (table column : String) : t.columnRef table column ≠ "" := by
  intro h
  have hblank := t.isBlank_columnRef table column
  rw [h, isBlank_empty] at hblank
  cases hblank

theorem isBlank_columnList {table : Table} (h : table.fields ≠ []) :
    isBlank (t.columnList table) = false := by
  obtain ⟨f, rest, hfields⟩ := List.exists_cons_of_ne_nil h
  have hf := t.isBlank_columnRef table.name f.name
  rw [columnList, hfields, commaList]
  cases rest with
  | nil => exact hf
  | cons g rest => simp [joinWith_cons_cons, isBlank_append, hf]

end Target

namespace Expr

theorem settled_col {table : Table} {f : Field} (hf : f ∈ table.fields) :
    (table.col f.name).Settled := by
  simp only [Table.col, Settled, Table.field?, List.find?_isSome]
  exact ⟨f, hf, beq_self_eq_true _⟩

theorem allNormal_columns {table : Table} : ∀ {fields : List Field},
    (∀ f ∈ fields, f ∈ table.fields) → AllNormal (fields.map fun f => table.col f.name)
  | [], _ => trivial
  | f :: rest, h => by
    obtain ⟨hf, hrest⟩ := List.forall_mem_cons.1 h
    exact ⟨settled_col hf, allNormal_columns hrest⟩

theorem reduce_everyColumn {table : Table} (h : table.fields ≠ []) :
    table.everyColumn.reduce .value = .ok table.everyColumn := by
  refine reduce_of_normalAt _ _ ⟨⟨?_, allNormal_columns fun f hf => hf⟩, fun hpos => ?_⟩
  · obtain ⟨f, hf⟩ := List.exists_mem_of_ne_nil _ h
    exact ⟨table.col f.name, List.mem_map.2 ⟨f, hf, rfl⟩, rfl⟩
  · cases hpos

end Expr

namespace Target

theorem exec_renderAll_columns (t : Target) (table : Table) (p : Parameters) :
    ∀ fields : List Field, (t.renderAll (fields.map fun f => table.col f.name)).exec p =
      (.ok (fields.map fun f => t.columnRef table.name f.name), p)
  | [] => rfl
  | f :: rest => by
    have hrest := exec_renderAll_columns t table p rest
    have hf : (t.render (table.col f.name)).exec p =
        (.ok (t.columnRef table.name f.name), p) := rfl
    rw [List.map_cons, renderAll, Binder.exec_bind_ok hf, Binder.exec_bind_ok hrest]
    rfl

/-- Columns bind nothing, and are written as a select list is. -/
theorem exec_render_everyColumn (t : Target) (table : Table) (p : Parameters) :
    (t.render table.everyColumn).exec p = (.ok (t.columnList table), p) := by
  rw [Table.everyColumn, render, Binder.exec_bind_ok (t.exec_renderAll_columns table p _)]
  rfl

theorem exec_compile_everyColumn (t : Target) {table : Table} (h : table.fields ≠ [])
    (p : Parameters) :
    (t.compile .projection table.everyColumn).exec p = (.ok (t.columnList table), p) := by
  rw [compile_eq, reduced, Mode.position, Expr.reduce_everyColumn h]
  exact t.exec_render_everyColumn table p

end Target

/-! ## Queries with nothing selected -/

/-- Tasks that add to the select list. -/
def Task.lists : Task → Bool
  | write .column _ _ => true
  | _ => false

def Task.closes : Task → Bool
  | build | probe => true
  | _ => false

theorem Slot.put_columns {slot : Slot} (h : slot ≠ .column) (text columns : String) (c : Clauses) :
    slot.put text { c with columns := columns } =
      { slot.put text c with columns := columns } := by
  cases slot with
  | column => exact absurd rfl h
  | _ => rfl

theorem RowLimit.set_columns (l : RowLimit) (d : Dialect) (columns : String) (c : Clauses)
    (p : Parameters) :
    l.set d { c with columns := columns } p =
      ({ (l.set d c p).1 with columns := columns }, (l.set d c p).2) := by
  cases l <;> cases d <;> rfl

namespace Query

variable {q q' q₁ : Query} {task : Task} {r : Except Error (Option String)}

/-- An open query with nothing selected, over a table that has columns. -/
structure Bare (q : Query) : Prop where
  sql : q.sql = none
  columns : q.clauses.columns = ""
  fields : q.table.fields ≠ []

/-- The query with all columns of its table selected. -/
def listed (q : Query) : Query :=
  { q with clauses := { q.clauses with columns := q.target.columnList q.table } }

theorem Bare.isBuilt (hq : q.Bare) : q.isBuilt = false := by
  rw [Query.isBuilt, hq.sql]
  rfl

theorem Bare.withColumns (hq : q.Bare) : q.withColumns = q.listed.clauses := by
  have hcolumn (f : Field) := q.target.columnRef_ne_empty q.table.name f.name
  rw [Query.withColumns, hq.columns, isBlank_empty, if_pos rfl, Clauses.foldl_addColumn, hq.columns,
    foldl_appendEntry_empty hcolumn]
  rfl

theorem Bare.withColumns_listed (hq : q.Bare) : q.listed.withColumns = q.listed.clauses := by
  have hblank : isBlank q.listed.clauses.columns = false := q.target.isBlank_columnList hq.fields
  rw [Query.withColumns, hblank]
  rfl

/-- Building makes no difference between nothing and everything. -/
theorem Bare.build_listed (hq : q.Bare) : q.listed.build = q.build := by
  have hsql : q.listed.sql = none := hq.sql
  have hlisted := hq.withColumns_listed
  rw [build, build, hsql, hq.sql]
  simp only [hlisted, hq.withColumns]
  rfl

theorem Bare.finish (hq : q.Bare) :
    q.finish = (q.listed.clauses.assemble q.target.dialect.defaultOrder?, q.params) := by
  rw [Query.finish, Query.build, hq.sql]
  simp only [hq.withColumns]

/-- A query stays bare unless something is selected or it is built. -/
theorem Does.bare (h : q.Does task r q') (hq : q.Bare) (ht : task.lists = false)
    (hc : task.closes = false) : q'.Bare := by
  obtain ⟨hsql, hcolumns, hfields⟩ := hq
  cases h with
  | @written slot =>
    refine ⟨hsql, ?_, hfields⟩
    cases slot with
    | column => cases ht
    | _ => exact hcolumns
  | @limited l =>
    refine ⟨hsql, ?_, hfields⟩
    have hset := l.set_columns q.target.dialect q.clauses.columns q.clauses q.params
    have hkept := congrArg (·.1.columns) hset
    exact hkept.trans hcolumns
  | built | probed => cases hc
  | _ => exact ⟨hsql, hcolumns, hfields⟩

/-- Other tasks do not look at the select list. -/
theorem Does.listed (h : q.Does task r q') (ht : task.lists = false) (hc : task.closes = false) :
    q.listed.Does task r q'.listed := by
  cases h with
  | failed => exact .failed _
  | refused hq he => exact .refused hq he
  | unreduced hq hr => exact .unreduced hq hr
  | unrendered hq hr hx => exact .unrendered (q := q.listed) hq hr hx
  | @written slot _ _ _ text _ hq hr hx =>
    have hslot : slot ≠ .column := by
      rintro rfl
      cases ht
    have hdoes : q.listed.Does (.write slot _ _) _ _ := .written (q := q.listed) hq hr hx
    rwa [Query.listed, slot.put_columns hslot] at hdoes
  | conflict hq hp => exact .conflict (q := q.listed) hq hp
  | @limited l hq hp =>
    have hdoes : q.listed.Does (.limit l) _ _ := .limited (q := q.listed) hq hp
    rwa [Query.listed, l.set_columns] at hdoes
  | counted hq => exact .counted (q := q.listed) hq
  | distinguished hq => exact .distinguished (q := q.listed) hq
  | built | probed => cases hc

/-- Two queries that are the same, or differ in that one has all columns selected where the other
has nothing. -/
inductive Listing (q : Query) : Query → Prop
  | same : Listing q q
  | listed (hq : q.Bare) : Listing q q.listed

theorem Listing.target (h : q.Listing q₁) : q₁.target = q.target := by
  cases h <;> rfl

theorem Listing.table (h : q.Listing q₁) : q₁.table = q.table := by
  cases h <;> rfl

theorem Listing.params (h : q.Listing q₁) : q₁.params = q.params := by
  cases h <;> rfl

theorem Listing.build (h : q.Listing q₁) : q₁.build = q.build := by
  cases h with
  | same => rfl
  | listed hq => exact hq.build_listed

/-- A task that selects nothing answers the same on both, and leaves them in the same relation. -/
theorem Does.listing (h : q.Does task r q') (hq : q.Listing q₁) (ht : task.lists = false) :
    ∃ q₁', q₁.Does task r q₁' ∧ q'.Listing q₁' := by
  cases hq with
  | same => exact ⟨q', h, .same⟩
  | listed hq =>
    cases hc : task.closes with
    | false => exact ⟨q'.listed, h.listed ht hc, .listed (h.bare hq ht hc)⟩
    | true =>
      -- Both queries are built, and are the same from then on.
      refine ⟨q', ?_, .same⟩
      cases h with
      | built =>
        rw [← hq.build_listed]
        exact .built
      | probed =>
        rw [← hq.build_listed]
        exact .probed
      | refused hbuilt =>
        rw [hq.isBuilt] at hbuilt
        cases hbuilt
      | _ => cases hc

end Query

/-! ## Sessions -/

def Step.selects {κ : Type} : Step κ → Bool
  | select _ => true
  | _ => false

namespace Session

variable {κ : Type} [DecidableEq κ] (describe : κ → Description)

def answers : Session κ → List (Step κ) → List (Except Error (Option String))
  | _, [] => []
  | s, st :: steps => (s.step describe st).1 :: answers (s.step describe st).2 steps

/-- A step comes down to a task that selects or settles if it does so itself: joins do neither. -/
theorem task_lists (s : Session κ) (st : Step κ) :
    (s.task describe st).1.lists = st.selects ∧ (s.task describe st).1.closes = st.closes := by
  by_cases he : st.entities = []
  · cases st with
    | join | joinPair => cases he
    | _ => exact ⟨rfl, rfl⟩
  · have hst : st.selects = false ∧ st.closes = false := by
      cases st with
      | join | joinPair => exact ⟨rfl, rfl⟩
      | _ => exact absurd rfl he
    rw [hst.1, hst.2]
    rcases s.task_of_entities describe he with ⟨_, _, err, _, hf⟩ | ⟨_, _, _, hw⟩
    · rw [hf]
      exact ⟨rfl, rfl⟩
    · rw [hw]
      exact ⟨rfl, rfl⟩

/-- Sessions that differ at most in that one has all columns selected. -/
structure Listing (s s₁ : Session κ) : Prop where
  cache : s₁.cache = s.cache
  query : s.query.Listing s₁.query

theorem Listing.task {s s₁ : Session κ} (h : s.Listing s₁) (st : Step κ) :
    s₁.task describe st = s.task describe st := by
  cases st with
  | join | joinPair => simp only [Session.task, h.cache, h.query.target, h.query.table]
  | _ => simp only [Session.task, h.cache, h.query.table]

theorem Listing.step {s s₁ : Session κ} (h : s.Listing s₁) {st : Step κ}
    (hst : st.selects = false) :
    (s₁.step describe st).1 = (s.step describe st).1 ∧
      (s.step describe st).2.Listing (s₁.step describe st).2 := by
  obtain ⟨hdoes, hcache⟩ := s.step_does describe st
  obtain ⟨hdoes₁, hcache₁⟩ := s₁.step_does describe st
  have ht : (s.task describe st).1.lists = false := by rw [(s.task_lists describe st).1, hst]
  obtain ⟨q₁', hq₁', hlisting⟩ := hdoes.listing h.query ht
  rw [h.task describe st] at hdoes₁ hcache₁
  obtain ⟨hanswer, hquery⟩ := hdoes₁.unique hq₁'
  exact ⟨hanswer, hcache₁.trans hcache.symm, hquery ▸ hlisting⟩

/-- Steps that select nothing answer the same on both, and leave them in the same relation. -/
theorem Listing.run {s s₁ : Session κ} (h : s.Listing s₁) {steps : List (Step κ)}
    (hsteps : ∀ st ∈ steps, st.selects = false) :
    s₁.answers describe steps = s.answers describe steps ∧
      (s.run describe steps).Listing (s₁.run describe steps) := by
  induction steps generalizing s s₁ with
  | nil => exact ⟨rfl, h⟩
  | cons st steps ih =>
    obtain ⟨hst, hsteps⟩ := List.forall_mem_cons.1 hsteps
    obtain ⟨hanswer, hstep⟩ := h.step describe hst
    obtain ⟨hanswers, hrun⟩ := ih hstep hsteps
    exact ⟨by rw [answers, answers, hanswer, hanswers], hrun⟩

theorem bare_run {s : Session κ} (h : s.query.Bare) {steps : List (Step κ)}
    (hsteps : ∀ st ∈ steps, st.selects = false ∧ st.closes = false) :
    (s.run describe steps).query.Bare := by
  induction steps generalizing s with
  | nil => exact h
  | cons st steps ih =>
    obtain ⟨hst, hsteps⟩ := List.forall_mem_cons.1 hsteps
    obtain ⟨hlists, hcloses⟩ := s.task_lists describe st
    have hdoes := (s.step_does describe st).1
    exact ih (hdoes.bare h (hlists.trans hst.1) (hcloses.trans hst.2)) hsteps

/-- Selecting all columns is done, and changes the select list only. -/
theorem step_select_all {s : Session κ} (h : s.query.Bare) :
    s.step describe (.select Table.everyColumn) =
      (.ok none, { s with query := s.query.listed }) := by
  have hcompile := s.query.target.exec_compile_everyColumn h.fields s.query.params
  have hselect : s.query.select Table.everyColumn = (.ok (), s.query.listed) := by
    rw [Query.select, Query.place_of_ok h.isBuilt hcompile, Clauses.addColumn, h.columns]
    rfl
  rw [step, onQuery, hselect]
  rfl

/-- **Selecting nothing means selecting every column.** In a run without a selection, a step that
selects all columns can be put anywhere before the statement is settled: it is done, every later
step answers what it answered without it, and so do building and the parameters at the end. -/
theorem run_select_all {target : Target} {k : κ} {cache : Cache κ} {s₀ : Session κ}
    (h : start describe target k cache = .ok s₀) (hfields : s₀.query.table.fields ≠ [])
    {before after : List (Step κ)}
    (hbefore : ∀ st ∈ before, st.selects = false ∧ st.closes = false)
    (hafter : ∀ st ∈ after, st.selects = false) :
    let all : Step κ := .select Table.everyColumn
    let s := s₀.run describe before
    let plain := (s₀.run describe (before ++ after)).query
    let full := (s₀.run describe (before ++ all :: after)).query
    (s.step describe all).1 = .ok none ∧
      (s.step describe all).2.answers describe after = s.answers describe after ∧
      full.build.1 = plain.build.1 ∧ full.params = plain.params := by
  intro all s plain full
  have hbare : s₀.query.Bare := by
    obtain ⟨table, hq⟩ := query_of_start describe h
    rw [hq] at hfields ⊢
    exact ⟨rfl, rfl, hfields⟩
  have hs : s.query.Bare := bare_run describe hbare hbefore
  have hselect : s.step describe all = (.ok none, { s with query := s.query.listed }) :=
    step_select_all describe hs
  have hlisting : s.Listing (s.step describe all).2 := by
    rw [hselect]
    exact ⟨rfl, .listed hs⟩
  obtain ⟨hanswers, hrun⟩ := hlisting.run describe hafter
  have hqueries : plain.Listing full := by
    have hplain : plain = (s.run describe after).query := by rw [← run_append]
    have hfull : full = ((s.step describe all).2.run describe after).query := by
      rw [← run_cons, ← run_append]
    rw [hplain, hfull]
    exact hrun.query
  exact ⟨by rw [hselect], hanswers, by rw [hqueries.build], hqueries.params⟩

/-- The columns are selected between a filter and a page, and a step that fails comes after them. -/
theorem run_select_all_before_page :
    let people : Table :=
      ⟨"Person", "Person", [{ name := "Id", ty := .long }, { name := "Name", ty := .string }]⟩
    let describe : Unit → Description := fun _ => { entity := "Person", fields := people.fields }
    let s₀ : Session Unit := ⟨⟨[((), people)]⟩, .ofTable { dialect := .oracle } people⟩
    let named : Step Unit := .filter fun t => .binary .eq (t.col "Name") (.const (.string "x"))
    let aged : Step Unit := .orderBy .ascending fun t => t.col "Age"
    let full := (s₀.run describe [named, .select Table.everyColumn, aged, .top 3]).query
    start describe { dialect := .oracle } () {} = .ok s₀ ∧
      full.build.1 = (s₀.run describe [named, aged, .top 3]).query.build.1 ∧
      full.build.1 = "SELECT \"Person\".\"Id\", \"Person\".\"Name\" FROM \"Person\" " ++
        "WHERE (\"Person\".\"Name\" = :p0) AND (ROWNUM <= :p1)" ∧
      full.params.keys = [":p0", ":p1"] := by
  intro people describe s₀ named aged full
  have h : start describe { dialect := .oracle } () {} = .ok s₀ := rfl
  have hbefore : ∀ st ∈ [named], st.selects = false ∧ st.closes = false := by
    simp [named, Step.selects, Step.closes]
  have hafter : ∀ st ∈ [aged, .top 3], st.selects = false := by
    simp [aged, Step.selects]
  obtain ⟨-, -, hbuild, -⟩ := run_select_all describe h (by decide) hbefore hafter
  exact ⟨h, hbuild, by decide, by decide⟩

end Session

end SqlCompose
