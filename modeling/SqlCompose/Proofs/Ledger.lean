/-
The parameter table along a run.

Whatever a task does, it only appends to the table (`Query.Does.params`), so the
names are always the first ones in order and a value once bound stays. And clauses
only grow: what stands in one after a step stands there after every later one, and
in the statement (`Session.standsIn_run`, `Query.standsIn_build`). Together they
follow a placeholder from the step that writes it to the end of the run
(`Session.run_parameters`).

What a step writes is given by a `Sketch`: a text with holes, and the values that
are bound for them, whatever was bound before. These values are the constants of its
reduced expression or the bounds of its window (`Task.bindings`).
-/
import SqlCompose.Expr.Build
import SqlCompose.Proofs.Bindings
import SqlCompose.Proofs.LifeCycle
import SqlCompose.Proofs.Merging
import SqlCompose.Proofs.Relocation
import SqlCompose.Proofs.Standing

namespace SqlCompose

/-! ## Tables with their own names -/

namespace Parameters

theorem key_inj {tag : String} {m n : Nat} (h : key tag m = key tag n) : m = n :=
  (key_eq_iff.1 h).2

theorem isBlank_key (tag : String) (n : Nat) : isBlank (key tag n) = false := by
  have hp : isBlank "p" = false := by decide
  rw [key, isBlank_append, isBlank_append, hp, Bool.and_false, Bool.false_and]

theorem keys_extend (tag : String) (vs : List Value) :
    (extend { tag := tag } vs).keys = (List.range vs.length).map (key tag) := by
  refine List.ext_getElem (by simp [extend, keys]) fun i hi hi' => ?_
  simp [extend, keys, size]

theorem values_extend (p : Parameters) (vs : List Value) :
    (p.extend vs).values = p.values ++ vs := by
  rw [extend, values, List.map_append]
  exact congrArg _ (List.ext_getElem (by simp) fun i hi hi' => by simp)

theorem extend_right_inj {p : Parameters} {vs ws : List Value} (h : p.extend vs = p.extend ws) :
    vs = ws := by
  have hvalues := congrArg values h
  rwa [values_extend, values_extend, List.append_cancel_left_eq] at hvalues

theorem lookup_numbered (tag : String) (vs : List Value) (n i : Nat) :
    (vs.mapIdx fun j v => (key tag (n + j), v)).lookup (key tag (n + i)) = vs[i]? := by
  induction vs generalizing n i with
  | nil => rfl
  | cons v vs ih =>
    rw [List.mapIdx_cons, List.lookup_cons]
    cases i with
    | zero => simp
    | succ i =>
      have hne : (key tag (n + (i + 1)) == key tag (n + 0)) = false := by
        simp only [beq_eq_false_iff_ne]
        intro h
        have := key_inj h
        omega
      have hrest := ih (n + 1) i
      rw [hne]
      simpa [Nat.add_assoc, Nat.add_comm 1] using hrest

theorem get?_extend (tag : String) (vs : List Value) (i : Nat) :
    (extend { tag := tag } vs).get? (key tag i) = vs[i]? := by
  simpa [extend, get?, size] using lookup_numbered tag vs 0 i

end Parameters

theorem Target.renderFor_extends (t : Target) (mode : Mode) (e : Expr) (p : Parameters) :
    ∃ vs, ((t.renderFor mode e).exec p).2 = p.extend vs := by
  obtain ⟨sketch, h⟩ := t.renderFor_relocatable mode e
  exact ⟨sketch.values, by rw [h p]; rfl⟩

/-! ## What limits write -/

namespace RowLimit

/-- The window of row numbers that a limit is, where it is one. -/
def window? (d : Dialect) : RowLimit → Option (Binder String)
  | top n =>
    if d = .oracle then
      some do return "(ROWNUM <= " ++ (← .bindValue (Paging.rowBound n.toNat)) ++ ")"
    else none
  | page size number =>
    let start := Paging.offset size number
    if d = .oracle then
      some do
        let low ← .bindValue (Paging.rowBound start)
        let high ← .bindValue (Paging.rowBound (Paging.last start size))
        return "((ROWNUM > " ++ low ++ ") AND (ROWNUM <= " ++ high ++ "))"
    else none

/-- The bounds of the window. -/
def bounds (d : Dialect) : RowLimit → List Value
  | top n => if d = .oracle then [Paging.rowBound n.toNat] else []
  | page size number =>
    let start := Paging.offset size number
    if d = .oracle then [Paging.rowBound start, Paging.rowBound (Paging.last start size)] else []

theorem window?_records {d : Dialect} {l : RowLimit} {m : Binder String}
    (h : l.window? d = some m) : Records m ((l.bounds d).map fun v => { value := v }) := by
  cases l with
  | top n =>
    rw [window?] at h
    split at h <;> cases h
    rw [bounds, if_pos ‹_›]
    exact (Records.bindValue _).map fun x => .between "(ROWNUM <= " x ")" rfl
  | page size number =>
    rw [window?] at h
    split at h <;> cases h
    have hframe := standsIn_frame "((ROWNUM > " ") AND (ROWNUM <= " "))" (by decide) rfl
      fun _ _ => rfl
    rw [bounds, if_pos ‹_›]
    exact (Records.bindValue _).seq (.bindValue _) hframe

theorem window?_relocatable {d : Dialect} {l : RowLimit} {m : Binder String}
    (h : l.window? d = some m) : Relocatable m := by
  cases l with
  | top n =>
    rw [window?] at h
    split at h <;> cases h
    exact (Relocatable.bindValue _).affix ⟨"(ROWNUM <= ", ")", fun _ => rfl⟩
  | page size number =>
    rw [window?] at h
    split at h <;> cases h
    exact (Relocatable.bindValue _).fix ⟨"((ROWNUM > ", ") AND (ROWNUM <= ", "))", fun _ _ => rfl⟩
      (.bindValue _)

theorem set_of_window {d : Dialect} {l : RowLimit} {m : Binder String} (h : l.window? d = some m)
    (c : Clauses) (p : Parameters) :
    ∃ text, m.exec p = (.ok text, (l.set d c p).2) ∧
      (l.set d c p).1 = { c with rowWindow := text } := by
  cases l <;> cases d <;> cases h <;> exact ⟨_, rfl, rfl⟩

theorem set_of_no_window {d : Dialect} {l : RowLimit} (h : l.window? d = none) (c : Clauses)
    (p : Parameters) : (l.set d c p).2 = p ∧ (l.set d c p).1.text = c.text := by
  cases l <;> cases d <;> cases h <;> exact ⟨rfl, rfl⟩

theorem set_conditions (d : Dialect) (l : RowLimit) (c : Clauses) (p : Parameters) :
    (l.set d c p).1.filter = c.filter ∧ (l.set d c p).1.having = c.having := by
  cases l <;> cases d <;> exact ⟨rfl, rfl⟩

end RowLimit

/-- The clause a task writes into, and the computation that gives the text. -/
def Task.writing? (t : Target) : Task → Option (Buffer × Binder String)
  | write slot mode e => some (slot.buffer, t.compile mode e)
  | limit l => (l.window? t.dialect).map (Buffer.rowWindow, ·)
  | _ => none

theorem Task.writing?_relocatable {t : Target} {task : Task} {b : Buffer} {m : Binder String}
    (h : task.writing? t = some (b, m)) : Relocatable m := by
  cases task with
  | write slot mode e =>
    cases h
    exact t.relocatable_compile mode e
  | limit l =>
    obtain ⟨m, hm, h⟩ := Option.map_eq_some_iff.1 h
    cases h
    exact RowLimit.window?_relocatable hm
  | _ => cases h

/-- What a task that writes binds: the constants of its reduced expression, or the bounds of its
window. -/
def Task.bindings (t : Target) : Task → List Binding
  | write _ mode e =>
    match e.reduce mode.position with
    | .ok r => t.bindings r
    | .error _ => []
  | limit l => (l.bounds t.dialect).map fun v => { value := v }
  | _ => []

theorem Task.writing?_shows {t : Target} {task : Task} {b : Buffer} {m : Binder String}
    (hm : task.writing? t = some (b, m)) {p q : Parameters} {text : String}
    (hx : m.exec p = (.ok text, q)) :
    q = p.extend ((task.bindings t).map (·.value)) ∧ Shows p (task.bindings t) text := by
  cases task with
  | write slot mode e =>
    cases hm
    rw [Target.compile_eq, Target.reduced] at hx
    rw [bindings]
    cases hr : e.reduce mode.position with
    | error err =>
      rw [hr] at hx
      cases hx
    | ok r =>
      rw [hr] at hx
      exact (t.renderFor_records mode r).ok hx
  | limit l =>
    obtain ⟨m, hw, hm⟩ := Option.map_eq_some_iff.1 hm
    cases hm
    exact (RowLimit.window?_records hw).ok hx
  | _ => cases hm

/-! ## What holds of every query -/

/-- What every query has that a session made for the target `t`. -/
structure Query.Sound (t : Target) (q : Query) : Prop where
  target : q.target = t
  /-- The names in the table are the first ones, in order. -/
  params : ∃ vs, q.params = .extend { tag := t.dialect.parameterTag } vs
  tidy : q.clauses.Tidy
  limits : q.clauses.rowLimits = q.paged.toNat
  /-- The text of a built query is that of its clauses. -/
  sql : ∀ text, q.sql = some text → text = q.clauses.assemble t.dialect.defaultOrder?

namespace Query

variable {t : Target} {q q' : Query} {task : Task} {r : Except Error (Option String)}

theorem sound_ofTable (t : Target) (table : Table) : (ofTable t table).Sound t where
  target := rfl
  params := ⟨[], rfl⟩
  tidy := ⟨fun _ => rfl, fun _ => rfl⟩
  limits := rfl
  sql _ h := by cases h

@[simp] theorem params_build (q : Query) : q.build.2.params = q.params := by
  unfold build
  split <;> rfl

theorem Does.params (h : q.Does task r q') : ∃ vs, q'.params = q.params.extend vs := by
  cases h with
  | @unrendered _ mode _ e _ _ _ _ hx | @written _ mode _ e _ _ _ _ hx =>
    obtain ⟨vs, hvs⟩ := q.target.renderFor_extends mode e q.params
    rw [hx] at hvs
    exact ⟨vs, hvs⟩
  | @limited l =>
    cases hw : l.window? q.target.dialect with
    | none => exact ⟨[], by rw [(RowLimit.set_of_no_window hw q.clauses q.params).1]; simp⟩
    | some m =>
      obtain ⟨text, hm, -⟩ := RowLimit.set_of_window hw q.clauses q.params
      obtain ⟨sketch, hs⟩ := RowLimit.window?_relocatable hw
      rw [hs] at hm
      exact ⟨sketch.values, (congrArg Prod.snd hm).symm⟩
  | built | probed => exact ⟨[], by simp⟩
  | _ => exact ⟨[], by simp⟩

theorem Does.tidy (h : q.Does task r q') (hq : q.clauses.Tidy) : q'.clauses.Tidy := by
  cases h with
  | @written slot => exact slot.tidy_put _ hq
  | @limited l =>
    obtain ⟨hfilter, hhaving⟩ := l.set_conditions q.target.dialect q.clauses q.params
    exact ⟨hfilter ▸ hq.filter, hhaving ▸ hq.having⟩
  | built | probed =>
    obtain ⟨columns, h⟩ := q.clauses_build
    rw [h]
    exact ⟨hq.filter, hq.having⟩
  | _ => exact ⟨hq.filter, hq.having⟩

theorem Does.sql (h : q.Does task r q')
    (hq : ∀ text, q.sql = some text → text = q.clauses.assemble q.target.dialect.defaultOrder?) :
    ∀ text, q'.sql = some text → text = q'.clauses.assemble q.target.dialect.defaultOrder? := by
  intro text hsql
  cases h with
  | written hopen | limited hopen | counted hopen | distinguished hopen =>
    have hnone : q.sql = none := by simpa [isBuilt] using hopen
    cases hnone.symm.trans hsql
  | built | probed =>
    rw [sql_build] at hsql
    cases hsql
    cases hbuilt : q.sql with
    | some text =>
      rw [build_of_sql hbuilt]
      exact hq text hbuilt
    | none => simp [build, hbuilt]
  | _ => exact hq text hsql

theorem Does.sound (h : q.Does task r q') (hq : q.Sound t) : q'.Sound t where
  target := h.target.trans hq.target
  params := by
    obtain ⟨vs, hvs⟩ := hq.params
    obtain ⟨ws, hws⟩ := h.params
    exact ⟨vs ++ ws, by rw [hws, hvs, Parameters.extend_extend]⟩
  tidy := h.tidy hq.tidy
  limits := h.rowLimits hq.limits
  sql := by
    have hsql := hq.sql
    rw [← hq.target] at hsql ⊢
    exact h.sql hsql

/-! ## Clauses grow -/

theorem rowWindow_of_unlimited (hq : q.Sound t) (hp : q.paged = false) :
    q.clauses.rowWindow = "" := by
  have h := hq.limits
  rw [hp, Clauses.rowLimits] at h
  by_contra hne
  simp [hne] at h

theorem standsIn_foldl_appendEntry (g : Field → String) (fields : List Field) (columns : String) :
    StandsIn columns (fields.foldl (fun columns f => appendEntry columns (g f)) columns) := by
  induction fields generalizing columns with
  | nil => exact .refl _
  | cons f rest ih => exact (standsIn_appendEntry columns (g f)).1.trans (ih _)

theorem standsIn_columns_build (q : Query) :
    StandsIn q.clauses.columns q.build.2.clauses.columns := by
  unfold build
  split
  · exact .refl _
  · unfold withColumns
    split
    · rw [Clauses.foldl_addColumn]
      exact standsIn_foldl_appendEntry _ _ _
    · exact .refl _

/-- What stands in a clause stays there. -/
theorem Does.standsIn (h : q.Does task r q') (hq : q.Sound t) (b : Buffer) :
    StandsIn (q.clauses.text b) (q'.clauses.text b) := by
  cases h with
  | @written slot =>
    by_cases hb : b = slot.buffer
    · subst hb
      exact (slot.standsIn_put _ hq.tidy).1
    · rw [slot.text_put_of_ne _ _ hb]
      exact .refl _
  | @limited l _ hp =>
    cases hw : l.window? q.target.dialect with
    | none =>
      rw [(RowLimit.set_of_no_window hw q.clauses q.params).2]
      exact .refl _
    | some m =>
      obtain ⟨text, -, hset⟩ := RowLimit.set_of_window hw q.clauses q.params
      rw [hset]
      cases b with
      | rowWindow =>
        have hempty := rowWindow_of_unlimited hq hp
        simp only [Clauses.text, hempty]
        exact .empty _
      | _ => exact .refl _
  | built | probed =>
    have hcolumns := q.standsIn_columns_build
    obtain ⟨columns, hclauses⟩ := q.clauses_build
    rw [hclauses] at hcolumns ⊢
    cases b with
    | columns => exact hcolumns
    | _ => exact .refl _
  | _ => exact .refl _

/-- What stands in a clause, and is more than white space, stands in the statement. -/
theorem standsIn_build (hq : q.Sound t) {b : Buffer} {x : String}
    (hx : StandsIn x (q.clauses.text b)) (hblank : isBlank x = false)
    (hcount : b = .columns → q.clauses.format.count = false) : StandsIn x q.build.1 := by
  have hdoes := Does.built (q := q)
  have hx' := hx.trans (hdoes.standsIn hq b)
  rw [(hdoes.sound hq).sql _ q.sql_build]
  refine hx'.trans (Clauses.standsIn_assemble _ _ (Bool.eq_false_iff.2 fun hb => ?_) fun hb => ?_)
  · rw [hx'.isBlank hb] at hblank
    cases hblank
  · obtain ⟨columns, hclauses⟩ := q.clauses_build
    rw [hclauses]
    exact hcount hb

/-- A task that is done writes the text of its computation at the end of its clause. -/
theorem Does.writes (h : q.Does task (.ok none) q') (hq : q.Sound t) {b : Buffer}
    {m : Binder String} (hm : task.writing? q.target = some (b, m)) :
    ∃ text front, m.exec q.params = (.ok text, q'.params) ∧
      q'.clauses.text b = front ++ text := by
  cases h with
  | @written slot mode e r text params _ hr hx =>
    cases hm
    obtain ⟨front, hfront⟩ := (slot.standsIn_put text hq.tidy).2
    refine ⟨text, front, ?_, hfront⟩
    rw [Target.compile_eq, Target.reduced, hr]
    exact hx
  | @limited l =>
    obtain ⟨m, hw, hm⟩ := Option.map_eq_some_iff.1 hm
    cases hm
    obtain ⟨text, hexec, hset⟩ := RowLimit.set_of_window hw q.clauses q.params
    exact ⟨text, "", hexec, by rw [hset]; simp [Clauses.text]⟩
  | counted | distinguished => cases hm

/-- A clause changes by the columns that building adds, or by what the task writes. -/
theorem Does.text_cases (h : q.Does task r q') (b : Buffer) :
    q'.clauses.text b = q.clauses.text b ∨
      (b = .columns ∧ (task = .build ∨ task = .probe) ∧ q'.clauses = q.withColumns) ∨
      r = .ok none ∧ ∃ m, task.writing? q.target = some (b, m) := by
  cases h with
  | @written slot =>
    by_cases hb : b = slot.buffer
    · exact .inr (.inr ⟨rfl, _, by rw [hb]; rfl⟩)
    · exact .inl (slot.text_put_of_ne _ _ hb)
  | @limited l =>
    cases hw : l.window? q.target.dialect with
    | none => exact .inl (by rw [(RowLimit.set_of_no_window hw q.clauses q.params).2])
    | some m =>
      obtain ⟨text, -, hset⟩ := RowLimit.set_of_window hw q.clauses q.params
      rw [hset]
      cases b with
      | rowWindow => exact .inr (.inr ⟨rfl, m, by simp [Task.writing?, hw]⟩)
      | _ => exact .inl rfl
  | built | probed =>
    cases hsql : q.sql with
    | some text => exact .inl (by rw [build_of_sql hsql])
    | none =>
      have hclauses : q.build.2.clauses = q.withColumns := by simp [build, hsql]
      obtain ⟨columns, hcolumns⟩ := q.clauses_build
      cases b with
      | columns => exact .inr (.inl ⟨rfl, by simp, hclauses⟩)
      | _ => exact .inl (by rw [hcolumns]; rfl)
  | _ => exact .inl rfl

theorem Sound.tag_params (hq : q.Sound t) : q.params.tag = t.dialect.parameterTag := by
  obtain ⟨vs, hvs⟩ := hq.params
  rw [hvs]
  rfl

theorem Sound.keys_params (hq : q.Sound t) :
    q.params.keys = (List.range q.params.size).map (Parameters.key t.dialect.parameterTag) := by
  obtain ⟨vs, hvs⟩ := hq.params
  rw [hvs, Parameters.keys_extend, Parameters.size_extend]
  exact congrArg (fun n => (List.range n).map _) (Nat.zero_add _).symm

/-- A value bound since the table had `n` entries is found under its name. -/
theorem Sound.get?_params (hq : q.Sound t) {p : Parameters} {vs : List Value}
    (hp : q.params = p.extend vs) {i : Nat} {v : Value} (hv : vs[i]? = some v) :
    q.params.get? (Parameters.key t.dialect.parameterTag (p.size + i)) = some v := by
  obtain ⟨ws, hws⟩ := hq.params
  have hvalues : ws = p.values ++ vs := by
    have h := congrArg Parameters.values (hws.symm.trans hp)
    rwa [Parameters.values_extend, Parameters.values_extend] at h
  have hsize : p.values.length = p.size := by simp [Parameters.values, Parameters.size]
  rw [hws, Parameters.get?_extend, hvalues, List.getElem?_append_right (by omega), hsize,
    Nat.add_sub_cancel_left, hv]

end Query

/-! ## Runs -/

theorem Template.isBlank_fill {T : Template} (h : T.holes ≠ []) (tag : String) (start : Nat) :
    isBlank (T.fill tag start) = false := by
  induction T with
  | nil => exact absurd rfl h
  | cons x T ih =>
    rw [fill, isBlank_append]
    cases x with
    | text s => rw [ih h, Bool.and_false]
    | hole i => rw [Piece.fill, Parameters.isBlank_key, Bool.false_and]

namespace Session

variable {κ : Type} [DecidableEq κ] (describe : κ → Description)

theorem sound_run {t : Target} {s : Session κ} (hs : s.query.Sound t) (steps : List (Step κ)) :
    (s.run describe steps).query.Sound t :=
  run_invariant describe (P := fun s => s.query.Sound t)
    (fun s st hs => (s.step_does describe st).1.sound hs) steps hs

theorem sound_of_start {t : Target} {k : κ} {cache : Cache κ} {s₀ : Session κ}
    (h : start describe t k cache = .ok s₀) (steps : List (Step κ)) :
    (s₀.run describe steps).query.Sound t := by
  obtain ⟨table, hq⟩ := query_of_start describe h
  exact sound_run describe (hq ▸ Query.sound_ofTable t table) steps

theorem standsIn_run {t : Target} {s : Session κ} (hs : s.query.Sound t) (steps : List (Step κ))
    (b : Buffer) :
    StandsIn (s.query.clauses.text b) ((s.run describe steps).query.clauses.text b) := by
  induction steps generalizing s with
  | nil => exact .refl _
  | cons st steps ih =>
    have hdoes := (s.step_does describe st).1
    exact (hdoes.standsIn hs b).trans (ih (hdoes.sound hs))

theorem params_run (s : Session κ) (steps : List (Step κ)) :
    ∃ vs, (s.run describe steps).query.params = s.query.params.extend vs := by
  induction steps generalizing s with
  | nil => exact ⟨[], by simp⟩
  | cons st steps ih =>
    obtain ⟨vs, hvs⟩ := (s.step_does describe st).1.params
    obtain ⟨ws, hws⟩ := ih (s.step describe st).2
    exact ⟨vs ++ ws, by rw [run_cons, hws, hvs, Parameters.extend_extend]⟩

theorem closes_of_task {s : Session κ} {st : Step κ}
    (h : (s.task describe st).1 = .build ∨ (s.task describe st).1 = .probe) : st.closes = true := by
  cases hc : st.closes with
  | true => rfl
  | false =>
    rcases task_edits describe s hc with he | ⟨err, hf⟩
    · rcases h with h | h <;> rw [h] at he <;> cases he
    · rcases h with h | h <;> rw [h] at hf <;> cases hf

/-- The step is done on `s` and writes into the clause `b` what the sketch says. -/
def Writes (s : Session κ) (st : Step κ) (b : Buffer) (sketch : Sketch) : Prop :=
  (s.step describe st).1 = .ok none ∧
    ∃ m, (s.task describe st).1.writing? s.query.target = some (b, m) ∧
      ∀ p, m.exec p = sketch.exec p

/-- The text is put at the end of its clause, and the constants of the task are bound. -/
theorem step_writes {t : Target} {s : Session κ} (hs : s.query.Sound t) {st : Step κ} {b : Buffer}
    {sketch : Sketch} (h : s.Writes describe st b sketch) :
    sketch.values = ((s.task describe st).1.bindings t).map (·.value) ∧
      (s.step describe st).2.query.params = s.query.params.extend sketch.values ∧
      ∃ T front, sketch.outcome = .ok T ∧ (s.step describe st).2.query.clauses.text b =
        front ++ T.fill t.dialect.parameterTag s.query.params.size := by
  obtain ⟨hok, m, hm, hk⟩ := h
  have hdoes := (s.step_does describe st).1
  rw [hok] at hdoes
  obtain ⟨text, front, hexec, hfront⟩ := hdoes.writes hs hm
  rw [hs.target] at hm
  have hbound := (Task.writing?_shows hm hexec).1
  rw [hk, Sketch.exec, hs.tag_params] at hexec
  obtain ⟨htext, hparams⟩ := Prod.mk.inj hexec
  refine ⟨Parameters.extend_right_inj (hparams.trans hbound), hparams.symm, ?_⟩
  cases hT : sketch.outcome with
  | error err =>
    rw [hT] at htext
    cases htext
  | ok T =>
    rw [hT] at htext
    cases htext
    exact ⟨T, front, rfl, hfront⟩

/-- **The parameter table along a run.** After every step the names are the first ones in order,
and the entries before it are kept. A clause changes only by what the step writes, the columns apart
that building adds; and every placeholder a step writes stands in its clause and in the statement
ever after, and its name in the table, with the value that the step bound for it. These values are
the constants of the step's reduced expression, or the bounds of its window. -/
theorem run_parameters {target : Target} {k : κ} {cache : Cache κ} {s₀ : Session κ}
    (h : start describe target k cache = .ok s₀) (before : List (Step κ)) (st : Step κ)
    (after : List (Step κ)) :
    let s := s₀.run describe before
    let s₁ := (s.step describe st).2
    let s₂ := s₁.run describe after
    let tag := target.dialect.parameterTag
    let n := s.query.params.size
    s₁.query.params.keys = (List.range s₁.query.params.size).map (Parameters.key tag) ∧
    s.query.params.entries <+: s₁.query.params.entries ∧
    (∀ b, s₁.query.clauses.text b = s.query.clauses.text b ∨
      (b = .columns ∧ st.closes = true ∧ s₁.query.clauses = s.query.withColumns) ∨
      ∃ sketch T front, s.Writes describe st b sketch ∧ sketch.outcome = .ok T ∧
        s₁.query.clauses.text b = front ++ T.fill tag n) ∧
    ∀ b sketch T, s.Writes describe st b sketch → sketch.outcome = .ok T →
      sketch.values = ((s.task describe st).1.bindings target).map (·.value) ∧
      s₁.query.params = s.query.params.extend sketch.values ∧
      StandsIn (T.fill tag n) (s₂.query.clauses.text b) ∧
      (T.holes ≠ [] → (b = .columns → s₂.query.clauses.format.count = false) →
        StandsIn (T.fill tag n) s₂.query.build.1) ∧
      ∀ i ∈ T.holes, ∃ v, sketch.values[i]? = some v ∧
        s₂.query.params.get? (Parameters.key tag (n + i)) = some v := by
  intro s s₁ s₂ tag n
  have hs : s.query.Sound target := sound_of_start describe h before
  have hdoes : s.query.Does (s.task describe st).1 (s.step describe st).1 s₁.query :=
    (s.step_does describe st).1
  have hs₁ : s₁.query.Sound target := hdoes.sound hs
  have hs₂ : s₂.query.Sound target := sound_run describe hs₁ after
  obtain ⟨vs, hvs⟩ := hdoes.params
  refine ⟨hs₁.keys_params, ?_, fun b => ?_, fun b sketch T hk hT => ?_⟩
  · rw [hvs]
    exact List.prefix_append _ _
  · rcases hdoes.text_cases b with heq | ⟨hb, ht, hclauses⟩ | ⟨hok, m, hm⟩
    · exact .inl heq
    · exact .inr (.inl ⟨hb, closes_of_task describe ht, hclauses⟩)
    · obtain ⟨sketch, hk⟩ := Task.writing?_relocatable hm
      have hw : s.Writes describe st b sketch := ⟨hok, m, hm, hk⟩
      obtain ⟨-, -, T, front, hT, hfront⟩ := step_writes describe hs hw
      exact .inr (.inr ⟨sketch, T, front, hw, hT, hfront⟩)
  · obtain ⟨hvalues, hparams, T', front, hT', hfront⟩ := step_writes describe hs hk
    cases hT.symm.trans hT'
    have hstands : StandsIn (T.fill tag n) (s₂.query.clauses.text b) := by
      refine StandsIn.trans ?_ (standsIn_run describe hs₁ after b)
      rw [hfront]
      exact .last _ _
    refine ⟨hvalues, hparams, hstands, fun hholes hcount => ?_, fun i hi => ?_⟩
    · exact Query.standsIn_build hs₂ hstands (Template.isBlank_fill hholes _ _) hcount
    · obtain ⟨ws, hws⟩ := s₁.params_run describe after
      have hall : s₂.query.params = s.query.params.extend (sketch.values ++ ws) := by
        rw [hws, hparams, Parameters.extend_extend]
      have hi : i < sketch.values.length := (sketch.ordered hT).2 i hi
      refine ⟨sketch.values[i], List.getElem?_eq_getElem hi, hs₂.get?_params hall ?_⟩
      rw [List.getElem?_append_left hi, List.getElem?_eq_getElem hi]

/-- The bound of a window stays under its name. -/
theorem run_parameters_window :
    let people : Table := ⟨"Person", "Person", [{ name := "Name", ty := .string }]⟩
    let describe : Unit → Description := fun _ => { entity := "Person", fields := people.fields }
    let s₀ : Session Unit := ⟨⟨[((), people)]⟩, .ofTable { dialect := .oracle } people⟩
    let named : Step Unit := .filter fun t => .binary .eq (t.col "Name") (.const (.string "x"))
    let s := ((s₀.run describe [named]).step describe (.top 2)).2.run describe [named, .build]
    start describe { dialect := .oracle } () {} = .ok s₀ ∧
      StandsIn "(ROWNUM <= :p1)" s.query.build.1 ∧ s.query.params.get? ":p1" = some (.int 2) := by
  intro people describe s₀ named s
  have h : start describe { dialect := .oracle } () {} = .ok s₀ := rfl
  let T : Template := [.text "(ROWNUM <= ", .hole 0, .text ")"]
  have hT : T.Ordered 1 := ⟨List.pairwise_singleton _ _, by decide⟩
  let k : Sketch := ⟨.ok T, [.int 2], by rintro _ ⟨⟩; exact hT⟩
  have hk : (s₀.run describe [named]).Writes describe (.top 2) .rowWindow k := by
    refine ⟨rfl, _, rfl, fun p => ?_⟩
    change (Except.ok ("(ROWNUM <= " ++ p.nextKey ++ ")"), p.push (.int 2)) = k.exec p
    simp [k, T, Sketch.exec, Except.map, Template.fill, Piece.fill, Parameters.nextKey,
      String.append_assoc]
  obtain ⟨-, -, -, hwrites⟩ := run_parameters describe h [named] (.top 2) [named, .build]
  obtain ⟨-, -, -, hstands, hget⟩ := hwrites .rowWindow k T hk rfl
  obtain ⟨v, hv, hget⟩ := hget 0 (by decide)
  cases hv
  have hn : (s₀.run describe [named]).query.params.size = 1 := by decide
  rw [hn] at hstands hget
  exact ⟨h, hstands (by decide) (fun hb => by cases hb), hget⟩

end Session

end SqlCompose
