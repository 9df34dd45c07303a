/-
Which names in the parameter table stand in the statement.

A name that is bound need not be used. A step that fails keeps what it bound before
the failure; `COUNT(*)` takes the place of the select list; and the operand of a
membership test in an empty list is rendered, but not written. One run can do all
three, so that no name is left in its statement (`Session.finish_orphans`). Every
other name stands there (`Session.finish_mentions`): it is followed from the step
that gave it out, through its clause, to the end of the run.
-/
import SqlCompose.Expr.Build
import SqlCompose.Proofs.Bindings
import SqlCompose.Proofs.Ledger

namespace SqlCompose

theorem Parameters.mem_keys_extend {p : Parameters} {vs : List Value} {x : String} :
    x ∈ (p.extend vs).keys ↔ x ∈ p.keys ∨ ∃ i < vs.length, x = key p.tag (p.size + i) := by
  simp [extend, keys, List.mem_mapIdx, eq_comm]

theorem Query.Sound.isBlank_of_mem {t : Target} {q : Query} (hq : q.Sound t) {name : String}
    (h : name ∈ q.params.keys) : isBlank name = false := by
  rw [hq.keys_params] at h
  obtain ⟨i, -, rfl⟩ := List.mem_map.1 h
  exact Parameters.isBlank_key _ i

/-! ## What a task binds -/

/-- Only expressions have constants that are not written. -/
theorem Task.exists_write_of_dropped {t : Target} {task : Task} {i : Nat} {b : Binding}
    (hb : (task.bindings t)[i]? = some b) (hw : b.written = false) :
    ∃ slot mode e r, task = .write slot mode e ∧ e.reduce mode.position = .ok r ∧
      (t.bindings r)[i]? = some b := by
  cases task with
  | write slot mode e =>
    rw [bindings] at hb
    split at hb
    · next r hr => exact ⟨slot, mode, e, r, rfl, hr, hb⟩
    · simp at hb
  | limit l =>
    obtain ⟨v, -, rfl⟩ := List.mem_map.1 (List.mem_of_getElem? hb)
    cases hw
  | _ => simp [bindings] at hb

/-- A task that succeeds and binds something writes a text. -/
theorem Query.Does.writing {q q' : Query} {task : Task} {answer : Option String}
    (h : q.Does task (.ok answer) q') (hp : q'.params ≠ q.params) :
    answer = none ∧ ∃ b m, task.writing? q.target = some (b, m) := by
  cases h with
  | written => exact ⟨rfl, _, _, rfl⟩
  | @limited l =>
    cases hw : l.window? q.target.dialect with
    | none => exact absurd (RowLimit.set_of_no_window hw q.clauses q.params).1 hp
    | some m => exact ⟨rfl, .rowWindow, m, by simp [Task.writing?, hw]⟩
  | built | probed => exact absurd q.params_build hp
  | counted | distinguished => exact absurd rfl hp

namespace Session

variable {κ : Type} [DecidableEq κ] (describe : κ → Description)

/-- Only selecting writes into the select list. -/
theorem select_of_writing {s : Session κ} {st : Step κ} {t : Target} {m : Binder String}
    (h : (s.task describe st).1.writing? t = some (.columns, m)) : ∃ f, st = .select f := by
  by_cases he : st.entities = []
  · cases st with
    | select f => exact ⟨f, rfl⟩
    | join | joinPair => cases he
    | top | paginate =>
      obtain ⟨m, -, h⟩ := Option.map_eq_some_iff.1 h
      cases h
    | _ => cases h
  · rcases s.task_of_entities describe he with ⟨_, _, err, _, hf⟩ | ⟨_, _, _, hw⟩
    · rw [hf] at h
      cases h
    · rw [hw] at h
      cases h

def Binds (s : Session κ) (st : Step κ) (name : String) : Prop :=
  name ∉ s.query.params.keys ∧ name ∈ (s.step describe st).2.query.params.keys

/-- A name that is in the table after a run was there before, or some step gave it out. -/
theorem exists_binds {s : Session κ} {steps : List (Step κ)} {name : String}
    (hs : name ∉ s.query.params.keys) (h : name ∈ (s.run describe steps).query.params.keys) :
    ∃ before st after, steps = before ++ st :: after ∧
      (s.run describe before).Binds describe st name := by
  induction steps generalizing s with
  | nil => exact absurd h hs
  | cons st steps ih =>
    by_cases hst : name ∈ (s.step describe st).2.query.params.keys
    · exact ⟨[], st, steps, rfl, hs, hst⟩
    · obtain ⟨before, st', after, rfl, hbinds⟩ := ih hst h
      exact ⟨st :: before, st', after, rfl, hbinds⟩

/-- Why a name that the step `st` gives out need not stand in the statement of a query with the
clauses `last`. -/
inductive Spared (s : Session κ) (st : Step κ) (last : Clauses) (name : String) : Prop
  /-- The step failed afterwards. -/
  | failed {err : Error} (h : (s.step describe st).1 = .error err)
  /-- It is in the select list, and rows are counted instead. -/
  | counted {f : Table → Expr} (hst : st = .select f) (hc : last.format.count = true)
  /-- It is in the operand of a membership test in an empty list. -/
  | dropped {slot : Slot} {mode : Mode} {e r : Expr} {i : Nat} {b : Binding}
    (ht : (s.task describe st).1 = .write slot mode e) (hr : e.reduce mode.position = .ok r)
    (hb : (s.query.target.bindings r)[i]? = some b) (hw : b.written = false)
    (hname : name = Parameters.key s.query.params.tag (s.query.params.size + i))

/-- A name that a step gives out stands in a clause, unless it is spared. -/
theorem standsIn_of_binds {t : Target} {s : Session κ} (hs : s.query.Sound t) {st : Step κ}
    {name : String} (h : s.Binds describe st name) (last : Clauses) :
    s.Spared describe st last name ∨
      ∃ b, StandsIn name ((s.step describe st).2.query.clauses.text b) ∧
        (b = .columns → ∃ f, st = .select f) := by
  have hdoes := (s.step_does describe st).1
  cases hr : (s.step describe st).1 with
  | error err => exact .inl (.failed hr)
  | ok answer =>
    rw [hr] at hdoes
    have hparams : (s.step describe st).2.query.params ≠ s.query.params :=
      fun heq => h.1 (heq ▸ h.2)
    obtain ⟨rfl, b, m, hm⟩ := hdoes.writing hparams
    obtain ⟨text, front, hexec, hfront⟩ := hdoes.writes hs hm
    obtain ⟨hq, hshows⟩ := Task.writing?_shows hm hexec
    have hmem := h.2
    rw [hq] at hmem
    obtain ⟨i, hi, hname⟩ := (Parameters.mem_keys_extend.1 hmem).resolve_left h.1
    rw [List.length_map] at hi
    have hb := List.getElem?_eq_getElem hi
    cases hw : ((s.task describe st).1.bindings s.query.target)[i].written with
    | true =>
      have hstands := hshows i _ hb hw
      rw [← hname] at hstands
      refine .inr ⟨b, ?_, fun hc => select_of_writing describe (hc ▸ hm)⟩
      rw [hfront]
      exact hstands.prepend front
    | false =>
      obtain ⟨slot, mode, e, r, ht, hr, hb⟩ := Task.exists_write_of_dropped hb hw
      exact .inl (.dropped ht hr hb hw hname)

/-- **Every name that is not spared is used.** However a run goes, each name in the final table
stands in the final statement, or is one that a step of the run gave out and that is spared: the
step failed, it selected and rows are counted, or the name is in the operand of a membership test in
an empty list. -/
theorem finish_mentions {target : Target} {k : κ} {cache : Cache κ} {s₀ : Session κ}
    (h : start describe target k cache = .ok s₀) (steps : List (Step κ)) :
    let q := (s₀.run describe steps).query
    ∀ name ∈ q.finish.2.keys, StandsIn name q.finish.1 ∨
      ∃ before st after, steps = before ++ st :: after ∧
        let s := s₀.run describe before
        s.Binds describe st name ∧ s.Spared describe st q.clauses name := by
  intro q name hname
  have hname : name ∈ q.params.keys := by
    rw [← q.params_build]
    exact hname
  have hfresh : name ∉ s₀.query.params.keys := by
    obtain ⟨table, hq⟩ := query_of_start describe h
    rw [hq]
    exact List.not_mem_nil
  obtain ⟨before, st, after, rfl, hbinds⟩ := exists_binds describe hfresh hname
  have hs := sound_of_start describe h before
  rcases standsIn_of_binds describe hs hbinds q.clauses with hspared | ⟨b, hstands, hselect⟩
  · exact .inr ⟨before, st, after, rfl, hbinds, hspared⟩
  by_cases hcount : b = .columns ∧ q.clauses.format.count = true
  · obtain ⟨f, hf⟩ := hselect hcount.1
    exact .inr ⟨before, st, after, rfl, hbinds, .counted hf hcount.2⟩
  · have hs' := (step_does describe _ st).1.sound hs
    have hq : q = (((s₀.run describe before).step describe st).2.run describe after).query := by
      rw [← run_cons, ← run_append]
    have hend := hstands.trans (standsIn_run describe hs' after b)
    rw [← hq] at hend
    have hsound : q.Sound target := sound_of_start describe h _
    refine .inl (Query.standsIn_build hsound hend (hsound.isBlank_of_mem hname) fun hb => ?_)
    exact Bool.eq_false_iff.2 fun hc => hcount ⟨hb, hc⟩

/-- The name of a filter's constant is not spared. -/
theorem finish_mentions_filter :
    let people : Table := ⟨"Person", "Person", [{ name := "Name", ty := .string }]⟩
    let describe : Unit → Description := fun _ => { entity := "Person", fields := people.fields }
    let s₀ : Session Unit := ⟨⟨[((), people)]⟩, .ofTable {} people⟩
    let named : Step Unit := .filter fun t => .binary .eq (t.col "Name") (.const (.string "x"))
    let q := (s₀.run describe [named]).query
    start describe {} () {} = .ok s₀ ∧ "@p0" ∈ q.finish.2.keys ∧ StandsIn "@p0" q.finish.1 := by
  intro people describe s₀ named q
  have h : start describe {} () {} = .ok s₀ := rfl
  have hmem : "@p0" ∈ q.finish.2.keys := by decide
  refine ⟨h, hmem, (finish_mentions describe h [named] "@p0" hmem).resolve_right ?_⟩
  rintro ⟨before, st, after, hsteps, -, hspared⟩
  have hfirst : before = [] := by
    cases before with
    | nil => rfl
    | cons _ before => simp at hsteps
  subst hfirst
  cases hsteps
  cases hspared with
  | failed herr => cases herr
  | counted hst => simp [named] at hst
  | dropped ht hr hb hw =>
    cases ht
    cases hr
    cases List.mem_singleton.1 (List.mem_of_getElem? hb)
    cases hw

/-- A run after which no name in the table stands in the statement: the first is selected and rows
are counted, the second is tested for membership in an empty list, and the third is bound by a step
that fails. -/
theorem finish_orphans :
    let people : Table := ⟨"Person", "Person", [{ name := "Name", ty := .string }]⟩
    let describe : Unit → Description := fun _ => { entity := "Person", fields := people.fields }
    let s₀ : Session Unit := ⟨⟨[((), people)]⟩, .ofTable {} people⟩
    let same (t : Table) (v : Value) := Expr.binary .eq (t.col "Name") (.const v)
    let steps : List (Step Unit) :=
      [.select fun _ => .const (.int 5),
        .count,
        .filter fun t => .inList (.binary .concat (t.col "Name") (.const (.string "x"))) [],
        .filter fun t => .binary .and (same t (.string "x")) (same t (.record [("a", .int 2)]))]
    let q := (s₀.run describe steps).query
    start describe {} () {} = .ok s₀ ∧
      q.finish.2.keys = ["@p0", "@p1", "@p2"] ∧
      q.finish.1 = "SELECT COUNT(*) FROM Person WHERE (1 = 0)" ∧
      ∀ name ∈ q.finish.2.keys, ¬ StandsIn name q.finish.1 := by
  intro people describe s₀ same steps q
  have hkeys : q.finish.2.keys = ["@p0", "@p1", "@p2"] := by decide
  have hsql : q.finish.1 = "SELECT COUNT(*) FROM Person WHERE (1 = 0)" := by decide
  refine ⟨rfl, hkeys, hsql, ?_⟩
  rw [hkeys, hsql]
  rintro name hname ⟨before, after, htext, -⟩
  have htag : ∀ name ∈ ["@p0", "@p1", "@p2"], '@' ∈ name.toList := by decide
  have hno : '@' ∉ "SELECT COUNT(*) FROM Person WHERE (1 = 0)".toList := by decide
  rw [htext] at hno
  simp [htag name hname] at hno

end Session

end SqlCompose
