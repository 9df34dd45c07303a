/-
What steps contribute to the statement.

A step that is done makes one edit of the clauses, and binds the values for the holes in
its text. Which edit that is depends on the step and on the tables it looks up, not on the
steps before it: those only decide the names that the holes get (`Session.Contributes`).
So a run is known from the list of its edits, whatever the parameters it starts with
(`Session.query_run`), and its statement is one template (`drafted_drawn`).
-/
import SqlCompose.Proofs.Drafts
import SqlCompose.Proofs.Edits

namespace SqlCompose

/-! ## Edits without names -/

/-- A text with holes, and the values that are bound for them. -/
structure Passage where
  template : Template
  values : List Value
  holes : ∀ i ∈ template.holes, i < values.length

def Passage.empty : Passage where
  template := []
  values := []
  holes := by simp [Template.holes]

namespace Edit

def values : Edit Passage → List Value
  | put _ text | window text => text.values
  | ending _ | top _ | count | distinct => []

/-- The edit with names for the holes. -/
def named (name : Nat → String) (e : Edit Passage) : Edit String :=
  e.map fun text => text.template.spell name

@[simp] theorem buffer?_named (name : Nat → String) (e : Edit Passage) :
    (e.named name).buffer? = e.buffer? := buffer?_map _ e

theorem named_eq_count (e : Edit Passage) (name : Nat → String) :
    e.named name = .count ↔ e = .count := by
  cases e <;> simp [named, map]

theorem named_eq_distinct (e : Edit Passage) (name : Nat → String) :
    e.named name = .distinct ↔ e = .distinct := by
  cases e <;> simp [named, map]

theorem values_of_flag {e : Edit Passage} (h : e.buffer? = none) : e.values = [] := by
  cases e with
  | count | distinct => rfl
  | _ => cases h

/-- Only the names of the values it binds matter to an edit. -/
theorem named_congr {name name' : Nat → String} {e : Edit Passage}
    (h : ∀ i < e.values.length, name i = name' i) : e.named name = e.named name' := by
  cases e with
  | put slot text =>
    exact congrArg (put slot) (Template.spell_congr fun i hi => h i (text.holes i hi))
  | window text => exact congrArg window (Template.spell_congr fun i hi => h i (text.holes i hi))
  | _ => rfl

def bound (edits : List (Edit Passage)) : List Value := edits.flatMap values

/-- The edits with names, which are given out from one to the next. -/
def drawn (name : Nat → String) : List (Edit Passage) → List (Edit String)
  | [] => []
  | e :: edits => e.named name :: drawn (fun i => name (e.values.length + i)) edits

@[simp] theorem bound_nil : bound [] = [] := rfl

@[simp] theorem bound_cons (e : Edit Passage) (edits : List (Edit Passage)) :
    bound (e :: edits) = e.values ++ bound edits := List.flatMap_cons

@[simp] theorem bound_append (edits edits' : List (Edit Passage)) :
    bound (edits ++ edits') = bound edits ++ bound edits' := List.flatMap_append

theorem drawn_append (name : Nat → String) (edits edits' : List (Edit Passage)) :
    drawn name (edits ++ edits') =
      drawn name edits ++ drawn (fun i => name ((bound edits).length + i)) edits' := by
  induction edits generalizing name with
  | nil => simp [drawn]
  | cons e edits ih => simp [drawn, ih, Nat.add_assoc]

theorem drawn_congr {name name' : Nat → String} {edits : List (Edit Passage)}
    (h : ∀ i < (bound edits).length, name i = name' i) : drawn name edits = drawn name' edits := by
  induction edits generalizing name name' with
  | nil => rfl
  | cons e edits ih =>
    simp only [bound_cons, List.length_append] at h
    rw [drawn, drawn, named_congr fun i hi => h i (by omega), ih fun i hi => h _ (by omega)]

theorem exists_of_mem_drawn {name : Nat → String} {edits : List (Edit Passage)} {e : Edit String}
    (h : e ∈ drawn name edits) : ∃ e' ∈ edits, ∃ name', e = e'.named name' := by
  induction edits generalizing name with
  | nil => cases h
  | cons e' edits ih =>
    rcases List.mem_cons.1 h with rfl | h
    · exact ⟨e', by simp, name, rfl⟩
    · obtain ⟨e'', he, name', h⟩ := ih h
      exact ⟨e'', by simp [he], name', h⟩

theorem mem_drawn_iff {x : Edit String} {y : Edit Passage}
    (h : ∀ (e : Edit Passage) (name : Nat → String), e.named name = x ↔ e = y)
    (name : Nat → String) (edits : List (Edit Passage)) : x ∈ drawn name edits ↔ y ∈ edits := by
  induction edits generalizing name with
  | nil => simp [drawn]
  | cons e edits ih => rw [drawn, List.mem_cons, List.mem_cons, ih, eq_comm, h, @eq_comm _ y]

end Edit

namespace DraftedClauses

variable {n : Nat} {c : Naming → Clauses}

/-- Clauses stay drafted by an edit that takes its names from number `start` on. -/
theorem apply (hc : DraftedClauses n c) {start : Nat} (e : Edit Passage)
    (h : start + e.values.length ≤ n) :
    DraftedClauses n fun μ => (e.named fun i => μ.name (start + i)).apply (c μ) := by
  cases e with
  | put slot text => exact hc.put slot (.spell_from text.holes h)
  | window text =>
    refine ⟨fun b => ?_, hc.frame⟩
    have hb := hc.text b
    cases b with
    | rowWindow => exact .spell_from text.holes h
    | _ => exact hb
  | ending text => exact ⟨hc.text, hc.frame.map fun frame => { frame with ending := text }⟩
  | top m =>
    exact ⟨hc.text, hc.frame.map fun frame =>
      { frame with format := { frame.format with top := some m } }⟩
  | count =>
    exact ⟨hc.text, hc.frame.map fun frame =>
      { frame with format := { frame.format with count := true } }⟩
  | distinct =>
    exact ⟨hc.text, hc.frame.map fun frame =>
      { frame with format := { frame.format with distinct := true } }⟩

theorem edit (hc : DraftedClauses n c) (start : Nat) (edits : List (Edit Passage))
    (h : start + (Edit.bound edits).length ≤ n) :
    DraftedClauses n fun μ => (c μ).edit (Edit.drawn (fun i => μ.name (start + i)) edits) := by
  induction edits generalizing c start with
  | nil => exact hc
  | cons e edits ih =>
    simp only [Edit.bound_cons, List.length_append] at h
    have hstep : start + e.values.length ≤ n := by omega
    have hrest := ih (hc.apply e hstep) (start + e.values.length) (by omega)
    simpa only [Edit.drawn, Clauses.edit_cons, Nat.add_assoc] using hrest

end DraftedClauses

/-- The statement of a query after edits, whatever the names. -/
theorem drafted_drawn {q : Query} (hq : q.sql = none) (edits : List (Edit Passage)) :
    Drafted (Edit.bound edits).length fun μ =>
      { q with clauses := q.clauses.edit (Edit.drawn μ.name edits) }.build.1 := by
  have h := (DraftedClauses.const q.clauses).edit 0 edits (Nat.le_of_eq (Nat.zero_add _))
  simpa only [Nat.zero_add] using Query.drafted_build hq h

/-! ## Tasks -/

namespace Query

variable {q q' q'' : Query} {task : Task} {r r' : Except Error (Option String)}

/-- A task does one thing. -/
theorem Does.unique (h : q.Does task r q') (h' : q.Does task r' q'') : r = r' ∧ q' = q'' := by
  cases h <;> cases h' <;> simp_all [Task.edits]

theorem Does.table (h : q.Does task r q') : q'.table = q.table := by
  cases h with
  | built | probed =>
    unfold build
    split <;> rfl
  | _ => rfl

/-- The query after an edit that gets the next names. -/
def edited (q : Query) (e : Edit Passage) : Query :=
  { q with
    clauses := (e.named q.params.upcoming.name).apply q.clauses
    params := q.params.extend e.values }

end Query

/-- Whenever the task is done on a query, it makes the edit, and it makes the edit on every query of
the target that is as open and as limited. -/
def Task.Makes (t : Target) (task : Task) (e : Edit Passage) : Prop :=
  ∀ {q q' : Query} {r : Option String}, q.target = t → q.Does task (.ok r) q' →
    q'.isBuilt = q.isBuilt ∧
    ∀ q₁ : Query, q₁.target = t → q₁.paged = q.paged → q₁.isBuilt = q.isBuilt →
      q₁.Does task (.ok r) { q₁.edited e with paged := q'.paged }

theorem Task.makes_fail (t : Target) (err : Error) (e : Edit Passage) : (fail err).Makes t e := by
  intro q q' r _ h
  cases h.of_fail.1

theorem Task.exists_makes_write (t : Target) (slot : Slot) (mode : Mode) (e : Expr) :
    ∃ text, (write slot mode e).Makes t (.put slot text) := by
  obtain ⟨⟨outcome, values, hordered⟩, hexec⟩ := t.relocatable_compile mode e
  have hrender {r : Expr} (hr : e.reduce mode.position = .ok r) (p : Parameters) :
      (t.renderFor mode r).exec p =
        (outcome.map (Template.fill p.tag p.size), p.extend values) := by
    have h := hexec p
    rw [Target.compile_eq, Target.reduced, hr] at h
    exact h
  cases outcome with
  | error err =>
    refine ⟨.empty, fun {q q' r} hq h => ?_⟩
    cases h with
    | written _ hr hx =>
      rw [hq, hrender hr] at hx
      cases hx
  | ok T =>
    refine ⟨⟨T, values, (hordered rfl).2⟩, fun {q q' r} hq h => ?_⟩
    cases h with
    | written hopen hr hx =>
      refine ⟨rfl, fun q₁ hq₁ hpaged hbuilt => ?_⟩
      have hx₁ := hrender hr q₁.params
      rw [← hq₁, Except.map, Template.fill_eq_spell] at hx₁
      have hwritten : q₁.Does (.write slot mode e) _ _ := .written (hbuilt.trans hopen) hr hx₁
      simpa [Query.edited, Edit.named, Edit.map, Edit.apply, Edit.values, ← hpaged] using hwritten

theorem RowLimit.exists_edit (d : Dialect) (l : RowLimit) :
    ∃ e : Edit Passage, e.buffer? = some .rowWindow ∧ ∀ c p,
      l.set d c p = ((e.named p.upcoming.name).apply c, p.extend e.values) := by
  cases hw : l.window? d with
  | some m =>
    obtain ⟨⟨outcome, values, hordered⟩, hexec⟩ := window?_relocatable hw
    have hset (c : Clauses) (p : Parameters) :
        ∃ text, outcome.map (Template.fill p.tag p.size) = .ok text ∧
          l.set d c p = ({ c with rowWindow := text }, p.extend values) := by
      obtain ⟨text, hm, hc⟩ := set_of_window hw c p
      rw [hexec p] at hm
      obtain ⟨htext, hp⟩ := Prod.mk.inj hm
      exact ⟨text, htext, Prod.ext hc hp.symm⟩
    cases outcome with
    | error err =>
      obtain ⟨text, htext, -⟩ := hset { table := "", source := "" } {}
      cases htext
    | ok T =>
      refine ⟨.window ⟨T, values, (hordered rfl).2⟩, rfl, fun c p => ?_⟩
      obtain ⟨text, htext, hset⟩ := hset c p
      cases htext
      rw [hset, Template.fill_eq_spell]
      rfl
  | none =>
    cases l <;> cases d <;> cases hw <;>
      first
        | exact ⟨.ending _, rfl, fun c p => Prod.ext rfl p.extend_nil.symm⟩
        | exact ⟨.top _, rfl, fun c p => Prod.ext rfl p.extend_nil.symm⟩

theorem Task.exists_makes_limit (t : Target) (l : RowLimit) :
    ∃ e : Edit Passage, e.buffer? = some .rowWindow ∧ (limit l).Makes t e := by
  obtain ⟨e, hb, he⟩ := l.exists_edit t.dialect
  refine ⟨e, hb, fun {q q' r} hq h => ?_⟩
  cases h with
  | limited hopen hp =>
    refine ⟨rfl, fun q₁ hq₁ hpaged hbuilt => ?_⟩
    have h : q₁.Does (.limit l) _ _ := .limited (hbuilt.trans hopen) (hpaged.trans hp)
    have hset := he q₁.clauses q₁.params
    rw [← hq₁] at hset
    rw [hset] at h
    exact h

theorem Task.makes_count (t : Target) : count.Makes t .count := by
  intro q q' r _ h
  cases h with
  | counted hopen =>
    refine ⟨rfl, fun q₁ _ hpaged hbuilt => ?_⟩
    simpa [Query.edited, Edit.named, Edit.map, Edit.apply, Edit.values, ← hpaged] using
      Query.Does.counted (hbuilt.trans hopen)

theorem Task.makes_distinct (t : Target) : distinct.Makes t .distinct := by
  intro q q' r _ h
  cases h with
  | distinguished hopen =>
    refine ⟨rfl, fun q₁ _ hpaged hbuilt => ?_⟩
    simpa [Query.edited, Edit.named, Edit.map, Edit.apply, Edit.values, ← hpaged] using
      Query.Does.distinguished (hbuilt.trans hopen)

/-! ## Look-ups -/

/-- What is found for an entity does not depend on look-ups before. -/
theorem Cache.table_table {κ : Type} [DecidableEq κ] (describe : κ → Description) (j k : κ)
    (c : Cache κ) : ((c.table describe j).2.table describe k).1 = (c.table describe k).1 := by
  cases hj : c.get? j with
  | some t => simp [table, hj]
  | none =>
    cases hb : (describe j).build with
    | error err => simp [table, hj, hb]
    | ok t =>
      have hafter : (c.table describe j).2 = ⟨c.entries ++ [(j, t)]⟩ := by simp [table, hj, hb]
      rw [hafter, table, table, get?, List.lookup_append]
      by_cases hkj : k = j
      · subst hkj
        rw [get?] at hj
        simp [get?, hj, hb]
      · have hlast : List.lookup k [(j, t)] = none := by
          have hbeq : (k == j) = false := by simpa using hkj
          rw [List.lookup_cons, hbeq]
          rfl
        rw [hlast, Option.or_none, ← get?]
        cases c.get? k with
        | some t' => rfl
        | none => cases (describe k).build <;> rfl

namespace Step

variable {κ : Type}

/-- The clause a step belongs to. Flags belong to none, and neither do the steps that settle the
statement. -/
def buffer? : Step κ → Option Buffer
  | select _ => some .columns
  | filter _ | orFilter _ => some .filter
  | groupBy _ => some .groupBy
  | having _ => some .having
  | orderBy _ _ => some .orderBy
  | join _ _ _ | joinPair _ _ _ _ => some .source
  | top _ | paginate _ _ => some .rowWindow
  | count | distinct | build | probe => none

end Step

namespace Session

variable {κ : Type} [DecidableEq κ] (describe : κ → Description)

/-- Sessions in which a step comes down to the same task. -/
structure Akin (s s' : Session κ) : Prop where
  target : s.query.target = s'.query.target
  table : s.query.table = s'.query.table
  tables : ∀ k, (s.cache.table describe k).1 = (s'.cache.table describe k).1

theorem Akin.trans {s s' s'' : Session κ} (h : s.Akin describe s') (h' : s'.Akin describe s'') :
    s.Akin describe s'' :=
  ⟨h.target.trans h'.target, h.table.trans h'.table, fun k => (h.tables k).trans (h'.tables k)⟩

theorem task_join (s : Session κ) (kind : JoinKind) (right : κ) (on : Table → Table → Expr) :
    (s.task describe (.join kind right on)).1 =
      match (s.cache.table describe right).1 with
      | .error err => .fail err
      | .ok right =>
        .write (.join kind.keyword (s.query.target.selectableTable right.name)) .predicate
          (on s.query.table right) := by
  rw [task]
  rcases s.cache.table describe right with ⟨_ | right, cache⟩ <;> rfl

theorem task_joinPair (s : Session κ) (kind : JoinKind) (left right : κ)
    (on : Table → Table → Expr) :
    (s.task describe (.joinPair kind left right on)).1 =
      match (s.cache.table describe left).1, (s.cache.table describe right).1 with
      | .error err, _ => .fail err
      | .ok _, .error err => .fail err
      | .ok left, .ok right =>
        .write (.join kind.keyword (s.query.target.selectableTable right.name)) .predicate
          (on left right) := by
  rw [task, ← s.cache.table_table describe left right]
  rcases s.cache.table describe left with ⟨_ | left, cache⟩
  · rfl
  · simp only
    rcases cache.table describe right with ⟨_ | right, cache'⟩ <;> rfl

theorem Akin.task {s s' : Session κ} (h : s.Akin describe s') (st : Step κ) :
    (s.task describe st).1 = (s'.task describe st).1 := by
  cases st with
  | join kind right on => rw [task_join, task_join, h.tables, h.target, h.table]
  | joinPair kind left right on =>
    rw [task_joinPair, task_joinPair, h.tables, h.tables, h.target]
  | select | filter | orFilter | groupBy | having | orderBy =>
    rw [Session.task, Session.task, h.table]
  | _ => rfl

/-- A step changes nothing that later steps come down to their tasks by. -/
theorem akin_step (s : Session κ) (st : Step κ) : (s.step describe st).2.Akin describe s := by
  obtain ⟨hdoes, hcache⟩ := s.step_does describe st
  refine ⟨hdoes.target, hdoes.table, fun k => ?_⟩
  rw [hcache]
  cases st with
  | join kind right on =>
    have hright := s.cache.table_table describe right k
    rw [task]
    rcases hr : s.cache.table describe right with ⟨_ | right, cache⟩ <;> rw [hr] at hright <;>
      exact hright
  | joinPair kind left right on =>
    have hleft := s.cache.table_table describe left k
    rw [task]
    rcases hl : s.cache.table describe left with ⟨_ | left, cache⟩ <;> rw [hl] at hleft
    · exact hleft
    · have hright := cache.table_table describe right k
      simp only
      rcases hr : cache.table describe right with ⟨_ | right, cache'⟩ <;> rw [hr] at hright <;>
        exact hright.trans hleft
  | _ => rfl

/-! ## Steps -/

/-- The edit that a step makes in this session, and in all that are akin to it. -/
structure Contributes (s : Session κ) (st : Step κ) (e : Edit Passage) : Prop where
  makes : (s.task describe st).1.Makes s.query.target e
  buffer : e.buffer? = st.buffer?
  count : e = .count ↔ st = .count
  distinct : e = .distinct ↔ st = .distinct

theorem Contributes.of_buffer {s : Session κ} {st : Step κ} {e : Edit Passage}
    (hmakes : (s.task describe st).1.Makes s.query.target e) {b : Buffer}
    (he : e.buffer? = some b) (hst : st.buffer? = some b) : s.Contributes describe st e := by
  refine ⟨hmakes, he.trans hst.symm, ⟨?_, ?_⟩, ⟨?_, ?_⟩⟩ <;> rintro rfl
  · cases he
  · cases hst
  · cases he
  · cases hst

/-- Every step makes one edit, unless it settles the statement. -/
theorem exists_contributes (s : Session κ) {st : Step κ} (h : st.closes = false) :
    ∃ e, s.Contributes describe st e := by
  have hwrite {slot : Slot} {mode : Mode} {e : Expr}
      (ht : (s.task describe st).1 = .write slot mode e) (hb : st.buffer? = some slot.buffer) :
      ∃ e, s.Contributes describe st e := by
    obtain ⟨text, htext⟩ := Task.exists_makes_write s.query.target slot mode e
    exact ⟨_, .of_buffer describe (ht ▸ htext) rfl hb⟩
  have hlimit {l : RowLimit} (ht : (s.task describe st).1 = .limit l)
      (hb : st.buffer? = some .rowWindow) : ∃ e, s.Contributes describe st e := by
    obtain ⟨e, he, hmakes⟩ := Task.exists_makes_limit s.query.target l
    exact ⟨e, .of_buffer describe (ht ▸ hmakes) he hb⟩
  have hjoin (he : st.entities ≠ []) (hb : st.buffer? = some .source) :
      ∃ e, s.Contributes describe st e := by
    rcases s.task_of_entities describe he with ⟨_, _, err, _, ht⟩ | ⟨keyword, table, e, ht⟩
    · refine ⟨.put (.join "" "") .empty, .of_buffer describe ?_ rfl hb⟩
      exact ht ▸ Task.makes_fail _ err _
    · exact hwrite ht hb
  cases st with
  | select | filter | orFilter | groupBy | having | orderBy => exact hwrite rfl rfl
  | join | joinPair => exact hjoin (by simp [Step.entities]) rfl
  | top | paginate => exact hlimit rfl rfl
  | count => exact ⟨.count, Task.makes_count _, rfl, by simp, by simp⟩
  | distinct => exact ⟨.distinct, Task.makes_distinct _, rfl, by simp, by simp⟩
  | build | probe => cases h

theorem exists_contribution (s : Session κ) (steps : List (Step κ))
    (h : ∀ st ∈ steps, st.closes = false) :
    ∃ contribution : Step κ → Edit Passage,
      ∀ st ∈ steps, s.Contributes describe st (contribution st) := by
  have hex (st : Step κ) : ∃ e, st ∈ steps → s.Contributes describe st e := by
    by_cases hst : st ∈ steps
    · obtain ⟨e, he⟩ := s.exists_contributes describe (h st hst)
      exact ⟨e, fun _ => he⟩
    · exact ⟨.count, fun hst' => absurd hst' hst⟩
  choose contribution hcontribution using hex
  exact ⟨contribution, hcontribution⟩

/-- Whether all steps of a run are done. -/
def succeeds : Session κ → List (Step κ) → Bool
  | _, [] => true
  | s, st :: steps => (s.step describe st).1.isOk && succeeds (s.step describe st).2 steps

/-- **A run is its edits.** If a run is done from one session, it is done from every other one that
is akin, as open and as limited, and there it makes the edits of its steps. -/
theorem query_run {s₀ : Session κ} {contribution : Step κ → Edit Passage} {steps : List (Step κ)}
    (h : ∀ st ∈ steps, s₀.Contributes describe st (contribution st)) {s s₁ : Session κ}
    (hs : s.Akin describe s₀) (hs₁ : s₁.Akin describe s₀)
    (hpaged : s₁.query.paged = s.query.paged) (hbuilt : s₁.query.isBuilt = s.query.isBuilt)
    (hdone : s.succeeds describe steps = true) :
    (s₁.run describe steps).query =
      { s₁.query with
        clauses := s₁.query.clauses.edit
          (Edit.drawn s₁.query.params.upcoming.name (steps.map contribution))
        params := s₁.query.params.extend (Edit.bound (steps.map contribution))
        paged := (s.run describe steps).query.paged } := by
  induction steps generalizing s s₁ with
  | nil =>
    rw [run_nil, run_nil, ← hpaged]
    simp [Edit.drawn]
  | cons st steps ih =>
    obtain ⟨hst, hsteps⟩ := List.forall_mem_cons.1 h
    rw [succeeds, Bool.and_eq_true] at hdone
    have hdoes := (s.step_does describe st).1
    cases hr : (s.step describe st).1 with
    | error err =>
      rw [hr] at hdone
      cases hdone.1
    | ok r =>
      rw [hr, hs.task] at hdoes
      obtain ⟨hopen, hall⟩ := hst.makes hs.target hdoes
      have hdoes₁ := (s₁.step_does describe st).1
      rw [hs₁.task] at hdoes₁
      obtain ⟨-, hquery⟩ := hdoes₁.unique (hall s₁.query hs₁.target hpaged hbuilt)
      have hrest := ih hsteps ((s.akin_step describe st).trans describe hs)
        ((s₁.akin_step describe st).trans describe hs₁) (by rw [hquery])
        (by rw [hopen, ← hbuilt, hquery]; rfl) hdone.2
      rw [run_cons, run_cons, hrest, hquery]
      simp only [Query.edited, Edit.drawn, List.map_cons, Edit.bound_cons, Clauses.edit_cons,
        Parameters.extend_extend, Parameters.name_upcoming_extend]

end Session

end SqlCompose
