/-
The life of a query: open, perhaps limited once, then built for good.

Building settles the statement. From then on the query never changes, building
answers the same text, probing its wrapper (`Dialect.existsProbe_eq`), and every
other step is refused, a join perhaps already for want of a table
(`Session.Frozen`). Before that, the rows are limited by at most one step, and
`Clauses.rowLimits` counts the places where a limit is set: as many as steps that
set one (`Session.run_life_cycle`).
-/
import SqlCompose.Proofs.Steps

namespace SqlCompose

/-! ## Probes -/

namespace Dialect

/-- A probe asks for the truth value where the engine selects one, and for a number elsewhere. -/
theorem existsProbe_eq (d : Dialect) (sql : String) :
    d.existsProbe sql =
      if d ∈ [mySql, postgres, sqlite] then "SELECT EXISTS(" ++ sql ++ ")"
      else if d = oracle then "SELECT CASE WHEN EXISTS(" ++ sql ++ ") THEN 1 ELSE 0 END FROM DUAL"
      else "SELECT CASE WHEN EXISTS(" ++ sql ++ ") THEN 1 ELSE 0 END" := by
  cases d <;> rfl

/-- Different statements have different probes. -/
theorem existsProbe_inj {d : Dialect} {sql sql' : String} :
    d.existsProbe sql = d.existsProbe sql' ↔ sql = sql' := by
  rw [existsProbe_eq, existsProbe_eq]
  split
  · simp
  · split <;> simp

end Dialect

/-! ## Built queries -/

namespace Query

theorem build_of_sql {q : Query} {text : String} (h : q.sql = some text) : q.build = (text, q) := by
  rw [build, h]

theorem sql_build (q : Query) : q.build.2.sql = some q.build.1 := by
  cases h : q.sql with
  | none => simp [build, h]
  | some text => rw [build_of_sql h, h]

theorem Does.of_built {q q' : Query} {task : Task} {r : Except Error (Option String)}
    (hq : q.isBuilt = true) (h : q.Does task r q') : q' = q := by
  obtain ⟨text, hsql⟩ := Option.isSome_iff_exists.1 hq
  cases h with
  | failed | refused => rfl
  | built | probed => rw [build_of_sql hsql]
  | unreduced hq' | unrendered hq' | written hq' | conflict hq' | limited hq' | counted hq'
  | distinguished hq' =>
    simp [hq] at hq'

theorem Does.alreadyBuilt {q q' : Query} {task : Task}
    {r : Except Error (Option String)} (hq : q.isBuilt = true) (ht : task.edits = true)
    (h : q.Does task r q') : r = .error .alreadyBuilt := by
  cases h with
  | refused => rfl
  | failed | built | probed => cases ht
  | unreduced hq' | unrendered hq' | written hq' | conflict hq' | limited hq' | counted hq'
  | distinguished hq' =>
    simp [hq] at hq'

end Query

namespace Session

variable {κ : Type} [DecidableEq κ] (describe : κ → Description)

theorem query_step_of_built {s : Session κ} (h : s.query.isBuilt = true) (st : Step κ) :
    (s.step describe st).2.query = s.query :=
  (s.step_does describe st).1.of_built h

theorem query_run_of_built {s : Session κ} (h : s.query.isBuilt = true) (steps : List (Step κ)) :
    (s.run describe steps).query = s.query := by
  refine run_invariant describe (P := fun s' => s'.query = s.query) (fun s' st hs' => ?_) steps rfl
  rw [query_step_of_built describe (hs' ▸ h), hs']

theorem query_step_of_closes (s : Session κ) {st : Step κ} (h : st.closes = true) :
    (s.step describe st).2.query = s.query.build.2 := by
  cases st with
  | build | probe => rfl
  | _ => cases h

/-- How a session answers once its query is built as `text`: the query stays `q`. -/
structure Frozen (q : Query) (text : String) (s : Session κ) :
    Prop where
  query : s.query = q
  build : (s.step describe .build).1 = .ok (some text)
  probe : (s.step describe .probe).1 = .ok (some (q.target.dialect.existsProbe text))
  finish : s.query.finish = (text, q.params)
  /-- All steps but joins. -/
  edit : ∀ st : Step κ, st.closes = false → st.entities = [] →
    (s.step describe st).1 = .error .alreadyBuilt
  join : ∀ st : Step κ, st.entities ≠ [] → (s.step describe st).1 = .error .alreadyBuilt ∨
    ∃ k ∈ st.entities, ∃ err, (describe k).build = .error err ∧
      (s.step describe st).1 = .error err

/-- A step that does not close asks for a change, unless a look-up fails. -/
theorem task_edits (s : Session κ) {st : Step κ} (hc : st.closes = false) :
    (s.task describe st).1.edits = true ∨ ∃ err, (s.task describe st).1 = .fail err := by
  by_cases he : st.entities = []
  · cases st with
    | build | probe => cases hc
    | join | joinPair => cases he
    | _ => exact .inl rfl
  · rcases s.task_of_entities describe he with ⟨_, _, err, _, hf⟩ | ⟨_, _, _, hw⟩
    · exact .inr ⟨err, hf⟩
    · exact .inl (by rw [hw]; rfl)

/-- A session with a built query stays so and refuses changes, whatever it is asked for. -/
theorem frozen_run {s : Session κ} {text : String} (h : s.query.sql = some text)
    (steps : List (Step κ)) : (s.run describe steps).Frozen describe s.query text := by
  have hb : s.query.isBuilt = true := by rw [Query.isBuilt, h]; rfl
  have hq := query_run_of_built describe hb steps
  have hsql : (s.run describe steps).query.sql = some text := hq ▸ h
  have hbuild := Query.build_of_sql hsql
  have hopen : (s.run describe steps).query.isBuilt = true := hq ▸ hb
  refine ⟨hq, ?_, ?_, ?_, fun st hc he => ?_, fun st he => ?_⟩
  · rw [step, answering, hbuild]
  · rw [step, answering, Query.probe, hbuild, hq]
  · rw [Query.finish, hbuild, hq]
  · rcases task_edits describe (s.run describe steps) hc with ht | ⟨err, ht⟩
    · exact (step_does describe _ st).1.alreadyBuilt hopen ht
    · obtain ⟨k, hk, -⟩ := build_of_task_fail describe ht
      simp [he] at hk
  · have hdoes := (step_does describe (s.run describe steps) st).1
    have hc : st.closes = false := by
      cases st with
      | build | probe => exact absurd rfl he
      | _ => rfl
    rcases task_edits describe (s.run describe steps) hc with ht | ⟨err, ht⟩
    · exact .inl (hdoes.alreadyBuilt hopen ht)
    · obtain ⟨k, hk, hbuild⟩ := build_of_task_fail describe ht
      rw [ht] at hdoes
      exact .inr ⟨k, hk, err, hbuild, hdoes.of_fail.1⟩

end Session

/-! ## Limits -/

namespace Clauses

/-- The number of places where a limit on the rows is set. -/
def rowLimits (c : Clauses) : Nat :=
  (c.ending != "").toNat + (c.rowWindow != "").toNat + c.format.top.isSome.toNat

@[simp] theorem rowLimits_put (slot : Slot) (text : String) (c : Clauses) :
    (slot.put text c).rowLimits = c.rowLimits := by
  cases slot <;> rfl

/-- Every engine sets a limit in one place. -/
theorem rowLimits_set (d : Dialect) (l : RowLimit) {c : Clauses} (p : Parameters)
    (h : c.rowLimits = 0) : (l.set d c p).1.rowLimits = 1 := by
  cases l <;> cases d <;> simp_all [RowLimit.set, Dialect.limit, Dialect.page, rowLimits]

theorem foldl_addColumn (g : Field → String) (fields : List Field) (c : Clauses) :
    fields.foldl (fun c f => c.addColumn (g f)) c =
      { c with
        columns := fields.foldl (fun columns f => appendEntry columns (g f)) c.columns } := by
  induction fields generalizing c with
  | nil => rfl
  | cons f rest ih => rw [List.foldl_cons, ih, List.foldl_cons, addColumn]

end Clauses

/-- Tasks that limit the rows. -/
def Task.limits : Task → Bool
  | limit _ => true
  | _ => false

namespace Query

theorem clauses_build (q : Query) :
    ∃ columns, q.build.2.clauses = { q.clauses with columns := columns } := by
  unfold build
  split
  · exact ⟨q.clauses.columns, rfl⟩
  · unfold withColumns
    split
    · exact ⟨_, Clauses.foldl_addColumn _ _ _⟩
    · exact ⟨q.clauses.columns, rfl⟩

@[simp] theorem paged_build (q : Query) : q.build.2.paged = q.paged := by
  unfold build
  split <;> rfl

@[simp] theorem rowLimits_build (q : Query) :
    q.build.2.clauses.rowLimits = q.clauses.rowLimits := by
  obtain ⟨columns, h⟩ := q.clauses_build
  rw [h]
  rfl

/-- A limit is set in one place if the query is limited, and nowhere if it is not. -/
theorem Does.rowLimits {q q' : Query} {task : Task} {r : Except Error (Option String)}
    (h : q.Does task r q') (hq : q.clauses.rowLimits = q.paged.toNat) :
    q'.clauses.rowLimits = q'.paged.toNat := by
  cases h with
  | written => simpa using hq
  | limited _ hp =>
    rw [hp] at hq
    exact Clauses.rowLimits_set _ _ _ hq
  | built | probed => simpa using hq
  | _ => exact hq

/-- A query becomes limited by the tasks that limit it and succeed. -/
theorem Does.paged {q q' : Query} {task : Task} {r : Except Error (Option String)}
    (h : q.Does task r q') :
    q'.paged.toNat = q.paged.toNat + (task.limits && r.isOk).toNat := by
  cases h with
  | limited _ hp => rw [hp]; rfl
  | refused | conflict => simp [Except.isOk, Except.toBool]
  | built | probed => simp [Task.limits]
  | _ => rfl

/-- The answer to a limit depends on the state of the query only. -/
theorem Does.limit_answer {q q' : Query} {l : RowLimit} {r : Except Error (Option String)}
    (h : q.Does (.limit l) r q') :
    r = if q.isBuilt then .error .alreadyBuilt
      else if q.paged then .error .pagingConflict else .ok none := by
  cases h with
  | refused hq => rw [if_pos hq]
  | conflict hq hp => simp [hq, hp]
  | limited hq hp => simp [hq, hp]

end Query

namespace Session

variable {κ : Type} [DecidableEq κ] (describe : κ → Description)

def limitCount : Session κ → List (Step κ) → Nat
  | _, [] => 0
  | s, st :: rest =>
    (st.limits && (s.step describe st).1.isOk).toNat + limitCount (s.step describe st).2 rest

theorem task_limits (s : Session κ) (st : Step κ) :
    (s.task describe st).1.limits = st.limits := by
  by_cases he : st.entities = []
  · cases st with
    | join | joinPair => cases he
    | _ => rfl
  · have hl : st.limits = false := by
      cases st with
      | top | paginate => exact absurd rfl he
      | _ => rfl
    rcases s.task_of_entities describe he with ⟨_, _, err, _, hf⟩ | ⟨_, _, _, hw⟩
    · rw [hf, hl]
      rfl
    · rw [hw, hl]
      rfl

theorem paged_run (s : Session κ) (steps : List (Step κ)) :
    (s.run describe steps).query.paged.toNat =
      s.query.paged.toNat + s.limitCount describe steps := by
  induction steps generalizing s with
  | nil => rfl
  | cons st steps ih =>
    have hstep := (s.step_does describe st).1.paged
    rw [task_limits] at hstep
    rw [run_cons, ih, limitCount, hstep]
    omega

theorem rowLimits_run {s : Session κ} (h : s.query.clauses.rowLimits = s.query.paged.toNat)
    (steps : List (Step κ)) :
    (s.run describe steps).query.clauses.rowLimits = (s.run describe steps).query.paged.toNat :=
  run_invariant describe (P := fun s => s.query.clauses.rowLimits = s.query.paged.toNat)
    (fun s st hs => (s.step_does describe st).1.rowLimits hs) steps h

theorem limitCount_of_start {target : Target} {k : κ} {cache : Cache κ} {s₀ : Session κ}
    (h : start describe target k cache = .ok s₀) (steps : List (Step κ)) :
    (s₀.run describe steps).query.paged.toNat = s₀.limitCount describe steps := by
  obtain ⟨table, hq⟩ := query_of_start describe h
  rw [paged_run, hq]
  exact Nat.zero_add _

/-- **The life of a query.** After any run, the text that building gives then is given for good;
at most one step has limited the rows, a limit is set in as many places as steps have set one, and
the next step to limit them is refused if the query is built, in conflict if one has done so
before, and done otherwise. -/
theorem run_life_cycle {target : Target} {k : κ} {cache : Cache κ} {s₀ : Session κ}
    (h : start describe target k cache = .ok s₀) (steps : List (Step κ)) :
    let s := s₀.run describe steps
    let text := s.query.build.1
    ((s.step describe .build).1 = .ok (some text) ∧
      (s.step describe .probe).1 = .ok (some (target.dialect.existsProbe text)) ∧
      s.query.finish.1 = text ∧
      ∀ close : Step κ, close.closes = true → ∀ later : List (Step κ),
        let s' := (s.step describe close).2
        s'.query.target = target ∧ (s'.run describe later).Frozen describe s'.query text) ∧
    s₀.limitCount describe steps ≤ 1 ∧
    s.query.clauses.rowLimits = s₀.limitCount describe steps ∧
    ∀ st : Step κ, st.limits = true → (s.step describe st).1 =
      if s.query.isBuilt then .error .alreadyBuilt
      else if s₀.limitCount describe steps = 1 then .error .pagingConflict else .ok none := by
  intro s text
  have htarget : s.query.target = target := target_run describe h steps
  have hcount : s.query.paged.toNat = s₀.limitCount describe steps :=
    limitCount_of_start describe h steps
  refine ⟨⟨rfl, ?_, rfl, fun close hc later => ?_⟩, ?_, ?_, fun st hl => ?_⟩
  · change Except.ok (some (s.query.build.2.target.dialect.existsProbe text)) = _
    rw [Query.target_build, htarget]
  · have hclose := s.query_step_of_closes describe hc
    refine ⟨by rw [hclose, Query.target_build, htarget], frozen_run describe ?_ later⟩
    rw [hclose, Query.sql_build]
  · rw [← hcount]
    exact Bool.toNat_le _
  · rw [← hcount]
    obtain ⟨table, hq⟩ := query_of_start describe h
    exact rowLimits_run describe (by rw [hq]; rfl) steps
  · have hdoes := (s.step_does describe st).1
    have ht := s.task_limits describe st
    rw [hl] at ht
    cases htask : (s.task describe st).1 with
    | limit l =>
      rw [htask] at hdoes
      rw [hdoes.limit_answer, ← hcount]
      cases s.query.paged <;> rfl
    | _ => rw [htask] at ht; cases ht

/-- A page cannot follow a limit in the same query, and once it is probed the limit stays. -/
theorem run_life_cycle_limited_once :
    let people : Table := ⟨"Person", "Person", [{ name := "Name", ty := .string }]⟩
    let describe : Unit → Description := fun _ => { entity := "Person", fields := people.fields }
    let s₀ : Session Unit := ⟨⟨[((), people)]⟩, .ofTable { dialect := .oracle } people⟩
    let s := s₀.run describe [.top 3]
    let s' := (s.step describe .probe).2
    start describe { dialect := .oracle } () {} = .ok s₀ ∧
      s.query.clauses.rowLimits = 1 ∧
      (s.step describe (.paginate 2 1)).1 = .error .pagingConflict ∧
      (s'.run describe [.distinct, .build]).Frozen describe s'.query
        "SELECT \"Person\".\"Name\" FROM \"Person\" WHERE (ROWNUM <= :p0)" := by
  intro people describe s₀ s s'
  have h : start describe { dialect := .oracle } () {} = .ok s₀ := rfl
  obtain ⟨⟨-, -, -, hfrozen⟩, -, hlimits, hnext⟩ := run_life_cycle describe h [.top 3]
  have hcount : s₀.limitCount describe [.top 3] = 1 := by decide
  have htext : s.query.build.1 =
      "SELECT \"Person\".\"Name\" FROM \"Person\" WHERE (ROWNUM <= :p0)" := by decide
  rw [hcount] at hlimits hnext
  refine ⟨h, hlimits, hnext (.paginate 2 1) rfl, ?_⟩
  rw [← htext]
  exact (hfrozen .probe rfl [.distinct, .build]).2

end Session

end SqlCompose
