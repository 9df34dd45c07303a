/-
What the steps of a session come down to.

A step looks its entities up first. What is left is a `Task` for the query alone; a
look-up that fails is a task too, the one that only reports its error. `Query.Does`
says case by case what a task can do, guards included, and `Session.step_does` that
a step does nothing else. So a property of every step is shown by cases on
`Query.Does`, and one of every run by the induction in `Session.run_invariant`.
-/
import SqlCompose.Proofs.Binder
import SqlCompose.Query.Session

namespace SqlCompose

/-! ## Tasks -/

/-- Where the text of an expression goes. -/
inductive Slot where
  | column
  | filter (connective : Connective)
  | groupBy
  | having
  | orderBy
  /-- The condition of a join with the table that is written `table`. -/
  | join (keyword table : String)

def Slot.put : Slot → String → Clauses → Clauses
  | column => Clauses.addColumn
  | filter connective => Clauses.addFilter connective
  | groupBy => Clauses.addGroupBy
  | having => Clauses.addHaving
  | orderBy => Clauses.addOrderBy
  | join keyword table => Clauses.addJoin keyword table

/-- A limit on the rows. -/
inductive RowLimit where
  | top (n : UInt64)
  | page (size number : UInt64)

def RowLimit.set (d : Dialect) : RowLimit → Clauses → Parameters → Clauses × Parameters
  | top n => d.limit n
  | page size number => d.page size number

/-- What a step asks of the query once its entities are looked up. -/
inductive Task where
  /-- Nothing but the error of a look-up. -/
  | fail (err : Error)
  | write (slot : Slot) (mode : Mode) (e : Expr)
  | limit (l : RowLimit)
  | count
  | distinct
  | build
  | probe

/-- Tasks that change the clauses, and so are refused once the query is built. -/
def Task.edits : Task → Bool
  | fail _ | build | probe => false
  | write _ _ _ | limit _ | count | distinct => true

namespace Query

/-- What a task can do to a query: the answer, and the query after it. -/
inductive Does (q : Query) : Task → Except Error (Option String) → Query → Prop
  | failed (err : Error) : Does q (.fail err) (.error err) q
  | refused {task : Task} (hq : q.isBuilt = true) (ht : task.edits = true) :
    Does q task (.error .alreadyBuilt) q
  | unreduced {slot : Slot} {mode : Mode} {e : Expr} {err : Error} (hq : q.isBuilt = false)
    (hr : e.reduce mode.position = .error err) : Does q (.write slot mode e) (.error err) q
  | unrendered {slot : Slot} {mode : Mode} {e r : Expr} {err : Error} {params : Parameters}
    (hq : q.isBuilt = false) (hr : e.reduce mode.position = .ok r)
    (hx : (q.target.renderFor mode r).exec q.params = (.error err, params)) :
    Does q (.write slot mode e) (.error err) { q with params := params }
  | written {slot : Slot} {mode : Mode} {e r : Expr} {text : String} {params : Parameters}
    (hq : q.isBuilt = false) (hr : e.reduce mode.position = .ok r)
    (hx : (q.target.renderFor mode r).exec q.params = (.ok text, params)) :
    Does q (.write slot mode e) (.ok none)
      { q with clauses := slot.put text q.clauses, params := params }
  | conflict {l : RowLimit} (hq : q.isBuilt = false) (hp : q.paged = true) :
    Does q (.limit l) (.error .pagingConflict) q
  | limited {l : RowLimit} (hq : q.isBuilt = false) (hp : q.paged = false) :
    Does q (.limit l) (.ok none)
      { q with
        clauses := (l.set q.target.dialect q.clauses q.params).1
        params := (l.set q.target.dialect q.clauses q.params).2
        paged := true }
  | counted (hq : q.isBuilt = false) :
    Does q .count (.ok none)
      { q with clauses := { q.clauses with format := { q.clauses.format with count := true } } }
  | distinguished (hq : q.isBuilt = false) :
    Does q .distinct (.ok none)
      { q with clauses := { q.clauses with format := { q.clauses.format with distinct := true } } }
  | built : Does q .build (.ok (some q.build.1)) q.build.2
  | probed : Does q .probe (.ok (some (q.target.dialect.existsProbe q.build.1))) q.build.2

@[simp] theorem target_build (q : Query) : q.build.2.target = q.target := by
  unfold build
  split <;> rfl

theorem whileOpen_of_built {q : Query} (h : q.isBuilt = true) (step : Outcome Unit) :
    q.whileOpen step = (.error .alreadyBuilt, q) := if_pos h

theorem whileOpen_of_open {q : Query} (h : q.isBuilt = false) (step : Outcome Unit) :
    q.whileOpen step = step := by
  rw [whileOpen, h]
  rfl

/-- The answer of a step on the query, as a session gives it. -/
abbrev answer (o : Outcome Unit) : Except Error (Option String) := o.1.map fun _ => none

theorem place_of_ok {q : Query} {mode : Mode} {e : Expr} {put : String → Clauses → Clauses}
    {text : String} {params : Parameters} (hq : q.isBuilt = false)
    (h : (q.target.compile mode e).exec q.params = (.ok text, params)) :
    q.place mode e put = (.ok (), { q with clauses := put text q.clauses, params := params }) := by
  rw [Binder.exec] at h
  rw [place, whileOpen_of_open hq, h]

theorem place_of_error {q : Query} {mode : Mode} {e : Expr} {put : String → Clauses → Clauses}
    {err : Error} {params : Parameters} (hq : q.isBuilt = false)
    (h : (q.target.compile mode e).exec q.params = (.error err, params)) :
    q.place mode e put = (.error err, { q with params := params }) := by
  rw [Binder.exec] at h
  rw [place, whileOpen_of_open hq, h]

theorem place_does (q : Query) (slot : Slot) (mode : Mode) (e : Expr) :
    q.Does (.write slot mode e) (answer (q.place mode e slot.put)) (q.place mode e slot.put).2 := by
  cases hq : q.isBuilt with
  | true =>
    rw [place, whileOpen_of_built hq]
    exact .refused hq rfl
  | false =>
    cases hr : e.reduce mode.position with
    | error err =>
      have hc : (q.target.compile mode e).exec q.params = (.error err, q.params) := by
        rw [Target.compile_eq, Target.reduced, hr]
        rfl
      rw [place_of_error hq hc]
      exact .unreduced hq hr
    | ok r =>
      have hc : (q.target.compile mode e).exec q.params =
          (q.target.renderFor mode r).exec q.params := by
        rw [Target.compile_eq, Target.reduced, hr]
        rfl
      rcases hx : (q.target.renderFor mode r).exec q.params with ⟨err | text, params⟩
      · rw [place_of_error hq (hc.trans hx)]
        exact .unrendered hq hr hx
      · rw [place_of_ok hq (hc.trans hx)]
        exact .written hq hr hx

theorem pageWith_does (q : Query) (l : RowLimit) :
    q.Does (.limit l) (answer (q.pageWith (l.set q.target.dialect)))
      (q.pageWith (l.set q.target.dialect)).2 := by
  cases hq : q.isBuilt with
  | true =>
    rw [pageWith, whileOpen_of_built hq]
    exact .refused hq rfl
  | false =>
    rw [pageWith, whileOpen_of_open hq]
    cases hp : q.paged with
    | true => exact .conflict hq hp
    | false => exact .limited hq hp

theorem count_does (q : Query) : q.Does .count (answer q.count) q.count.2 := by
  cases hq : q.isBuilt with
  | true =>
    rw [count, whileOpen_of_built hq]
    exact .refused hq rfl
  | false =>
    rw [count, whileOpen_of_open hq]
    exact .counted hq

theorem distinct_does (q : Query) : q.Does .distinct (answer q.distinct) q.distinct.2 := by
  cases hq : q.isBuilt with
  | true =>
    rw [distinct, whileOpen_of_built hq]
    exact .refused hq rfl
  | false =>
    rw [distinct, whileOpen_of_open hq]
    exact .distinguished hq

theorem probe_does (q : Query) : q.Does .probe (.ok (some q.probe.1)) q.probe.2 := by
  have h := Does.probed (q := q)
  rwa [← target_build] at h

theorem Does.of_fail {q q' : Query} {err : Error} {r : Except Error (Option String)}
    (h : q.Does (.fail err) r q') : r = .error err ∧ q' = q := by
  cases h with
  | failed => exact ⟨rfl, rfl⟩
  | refused _ ht => cases ht

theorem Does.target {q q' : Query} {task : Task} {r : Except Error (Option String)}
    (h : q.Does task r q') : q'.target = q.target := by
  cases h with
  | built | probed => exact q.target_build
  | _ => rfl

end Query

/-! ## Steps -/

namespace Step

variable {κ : Type}

def entities : Step κ → List κ
  | join _ right _ => [right]
  | joinPair _ left right _ => [left, right]
  | _ => []

/-- Steps that settle the statement. -/
def closes : Step κ → Bool
  | build | probe => true
  | _ => false

def limits : Step κ → Bool
  | top _ | paginate _ _ => true
  | _ => false

end Step

theorem Cache.table_prefix {κ : Type} [DecidableEq κ] (describe : κ → Description) (k : κ)
    (c : Cache κ) : c.entries <+: (c.table describe k).2.entries := by
  unfold Cache.table
  split
  · exact List.prefix_refl _
  · split
    · exact List.prefix_append _ _
    · exact List.prefix_refl _

/-- A look-up fails only where the entity's description does not build. -/
theorem Cache.build_of_table_error {κ : Type} [DecidableEq κ] {describe : κ → Description} {k : κ}
    {c c' : Cache κ} {err : Error} (h : c.table describe k = (.error err, c')) :
    (describe k).build = .error err := by
  unfold Cache.table at h
  split at h
  · cases h
  · split at h
    · cases h
    · next hb =>
      cases h
      exact hb

namespace Session

variable {κ : Type} [DecidableEq κ]

/-- What is left of a step after its look-ups, and the cache after them. -/
def task (describe : κ → Description) (s : Session κ) : Step κ → Task × Cache κ
  | .select f => (.write .column .projection (f s.query.table), s.cache)
  | .filter f => (.write (.filter .and) .predicate (f s.query.table), s.cache)
  | .orFilter f => (.write (.filter .or) .predicate (f s.query.table), s.cache)
  | .groupBy f => (.write .groupBy .projection (f s.query.table), s.cache)
  | .having f => (.write .having .predicate (f s.query.table), s.cache)
  | .orderBy direction f => (.write .orderBy (.ordering direction) (f s.query.table), s.cache)
  | .join kind right on =>
    match s.cache.table describe right with
    | (.ok right, cache) =>
      (.write (.join kind.keyword (s.query.target.selectableTable right.name)) .predicate
        (on s.query.table right), cache)
    | (.error err, cache) => (.fail err, cache)
  | .joinPair kind left right on =>
    match s.cache.table describe left with
    | (.error err, cache) => (.fail err, cache)
    | (.ok left, cache) =>
      match cache.table describe right with
      | (.ok right, cache) =>
        (.write (.join kind.keyword (s.query.target.selectableTable right.name)) .predicate
          (on left right), cache)
      | (.error err, cache) => (.fail err, cache)
  | .top n => (.limit (.top n), s.cache)
  | .paginate size page => (.limit (.page size page), s.cache)
  | .count => (.count, s.cache)
  | .distinct => (.distinct, s.cache)
  | .build => (.build, s.cache)
  | .probe => (.probe, s.cache)

variable (describe : κ → Description)

/-- **A step is its look-ups and its task.** -/
theorem step_does (s : Session κ) (st : Step κ) :
    s.query.Does (s.task describe st).1 (s.step describe st).1 (s.step describe st).2.query ∧
      (s.step describe st).2.cache = (s.task describe st).2 := by
  cases st with
  | select f => exact ⟨s.query.place_does .column _ _, rfl⟩
  | filter f => exact ⟨s.query.place_does (.filter .and) _ _, rfl⟩
  | orFilter f => exact ⟨s.query.place_does (.filter .or) _ _, rfl⟩
  | groupBy f => exact ⟨s.query.place_does .groupBy _ _, rfl⟩
  | having f => exact ⟨s.query.place_does .having _ _, rfl⟩
  | orderBy direction f => exact ⟨s.query.place_does .orderBy _ _, rfl⟩
  | join kind right on =>
    rw [task, step, withTable]
    rcases s.cache.table describe right with ⟨_ | right, cache⟩
    · exact ⟨.failed _, rfl⟩
    · exact ⟨s.query.place_does (.join _ _) _ _, rfl⟩
  | joinPair kind left right on =>
    rw [task, step, withTable]
    rcases s.cache.table describe left with ⟨_ | left, cache⟩
    · exact ⟨.failed _, rfl⟩
    · simp only [withTable]
      rcases cache.table describe right with ⟨_ | right, cache⟩
      · exact ⟨.failed _, rfl⟩
      · exact ⟨s.query.place_does (.join _ _) _ _, rfl⟩
  | top n => exact ⟨s.query.pageWith_does (.top n), rfl⟩
  | paginate size page => exact ⟨s.query.pageWith_does (.page size page), rfl⟩
  | count => exact ⟨s.query.count_does, rfl⟩
  | distinct => exact ⟨s.query.distinct_does, rfl⟩
  | build => exact ⟨.built, rfl⟩
  | probe => exact ⟨s.query.probe_does, rfl⟩

/-- A step with entities fails on one that has no table, or writes the condition of a join. -/
theorem task_of_entities (s : Session κ) {st : Step κ} (h : st.entities ≠ []) :
    (∃ k ∈ st.entities, ∃ err, (describe k).build = .error err ∧
      (s.task describe st).1 = .fail err) ∨
    ∃ keyword table e, (s.task describe st).1 = .write (.join keyword table) .predicate e := by
  cases st with
  | join kind right on =>
    rw [task]
    rcases hr : s.cache.table describe right with ⟨_ | _, cache⟩
    · exact .inl ⟨right, by simp [Step.entities], _, Cache.build_of_table_error hr, rfl⟩
    · exact .inr ⟨_, _, _, rfl⟩
  | joinPair kind left right on =>
    rw [task]
    rcases hl : s.cache.table describe left with ⟨_ | _, cache⟩
    · exact .inl ⟨left, by simp [Step.entities], _, Cache.build_of_table_error hl, rfl⟩
    · simp only
      rcases hr : cache.table describe right with ⟨_ | _, cache'⟩
      · exact .inl ⟨right, by simp [Step.entities], _, Cache.build_of_table_error hr, rfl⟩
      · exact .inr ⟨_, _, _, rfl⟩
  | _ => exact absurd rfl h

/-- Only a step with entities can fail on a look-up, and then one of them has no table. -/
theorem build_of_task_fail {s : Session κ} {st : Step κ} {err : Error}
    (h : (s.task describe st).1 = .fail err) :
    ∃ k ∈ st.entities, (describe k).build = .error err := by
  by_cases he : st.entities = []
  · cases st with
    | join | joinPair => cases he
    | _ => cases h
  · rcases s.task_of_entities describe he with ⟨k, hk, err', hb, hf⟩ | ⟨_, _, _, hw⟩
    · rw [hf] at h
      cases h
      exact ⟨k, hk, hb⟩
    · rw [hw] at h
      cases h

theorem task_cache (s : Session κ) (st : Step κ) :
    s.cache.entries <+: (s.task describe st).2.entries := by
  cases st with
  | join kind right on =>
    have h := s.cache.table_prefix describe right
    rw [task]
    rcases hr : s.cache.table describe right with ⟨_ | _, cache⟩ <;> rw [hr] at h <;> exact h
  | joinPair kind left right on =>
    have h := s.cache.table_prefix describe left
    rw [task]
    rcases hl : s.cache.table describe left with ⟨_ | _, cache⟩ <;> rw [hl] at h
    · exact h
    · have h' := cache.table_prefix describe right
      simp only
      rcases hr : cache.table describe right with ⟨_ | _, cache'⟩ <;> rw [hr] at h' <;>
        exact h.trans h'
  | _ => exact List.prefix_refl _

/-! ## Runs -/

@[simp] theorem run_nil (s : Session κ) : s.run describe [] = s := rfl

@[simp] theorem run_cons (s : Session κ) (st : Step κ) (steps : List (Step κ)) :
    s.run describe (st :: steps) = (s.step describe st).2.run describe steps := rfl

theorem run_append (s : Session κ) (before after : List (Step κ)) :
    s.run describe (before ++ after) = (s.run describe before).run describe after :=
  List.foldl_append

/-- What holds at the start and is kept by every step holds after every run. -/
theorem run_invariant {P : Session κ → Prop} (hstep : ∀ s st, P s → P (s.step describe st).2)
    (steps : List (Step κ)) {s : Session κ} (h : P s) : P (s.run describe steps) := by
  induction steps generalizing s with
  | nil => exact h
  | cons st steps ih => exact ih (hstep s st h)

/-- A session opens with a query over a table that has no clauses yet. -/
theorem query_of_start {target : Target} {k : κ} {cache : Cache κ} {s : Session κ}
    (h : start describe target k cache = .ok s) : ∃ table, s.query = .ofTable target table := by
  unfold start at h
  split at h
  · cases h
    exact ⟨_, rfl⟩
  · cases h

theorem target_run {target : Target} {k : κ} {cache : Cache κ} {s₀ : Session κ}
    (h : start describe target k cache = .ok s₀) (steps : List (Step κ)) :
    (s₀.run describe steps).query.target = target := by
  refine run_invariant describe (P := fun s => s.query.target = target) (fun s st hs => ?_) steps ?_
  · rw [(s.step_does describe st).1.target, hs]
  · obtain ⟨table, hq⟩ := query_of_start describe h
    rw [hq]
    rfl

end Session

end SqlCompose
