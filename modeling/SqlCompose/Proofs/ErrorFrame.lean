/-
What a failed step leaves behind.

Clauses, limits and the built text stay as they were, whatever the error. The
parameters stay as well, except where a reduced expression fails to render: then
they keep their entries and gain those bound before the failure. `Session.Fault`
lists where errors come from, each with the parameters it leaves
(`Session.step_error_frame`). The cache only ever gains entries, since look-ups are
made before anything else.
-/
import SqlCompose.Expr.Build
import SqlCompose.Proofs.Bindings
import SqlCompose.Proofs.Relocation

namespace SqlCompose

theorem Target.renderFor_error {t : Target} {mode : Mode} {e : Expr} {p q : Parameters}
    {err : Error} (h : (t.renderFor mode e).exec p = (.error err, q)) :
    (∃ cause, err = .unsupported cause) ∧ ∃ vs, q = p.extend vs := by
  obtain ⟨sketch, hsketch⟩ := t.renderFor_relocatable mode e
  have hq := hsketch p
  rw [h] at hq
  exact ⟨(t.renderFor_records mode e).error h, sketch.values, congrArg Prod.snd hq⟩

theorem Description.build_error {d : Description} {err : Error} (h : d.build = .error err) :
    ∃ fault, err = .invalidSchema fault := by
  unfold build at h
  split at h
  · cases h
    exact ⟨_, rfl⟩
  · split at h
    · cases h
      exact ⟨_, rfl⟩
    · cases h

namespace Session

variable {κ : Type} [DecidableEq κ] (describe : κ → Description)

/-- Where the error of a step comes from, and the parameters it leaves. -/
inductive Fault (s : Session κ) (st : Step κ) : Error → Parameters → Prop
  | lookUp {k : κ} {fault : SchemaFault} (hk : k ∈ st.entities)
    (hb : (describe k).build = .error (.invalidSchema fault)) :
    Fault s st (.invalidSchema fault) s.query.params
  | built (hs : s.query.isBuilt = true) : Fault s st .alreadyBuilt s.query.params
  | conflict (hs : s.query.paged = true) : Fault s st .pagingConflict s.query.params
  | reduction {slot : Slot} {mode : Mode} {e : Expr} {err : Error}
    (ht : (s.task describe st).1 = .write slot mode e)
    (hr : e.reduce mode.position = .error err) : Fault s st err s.query.params
  | rendering {slot : Slot} {mode : Mode} {e r : Expr} {cause : Unsupported} {vs : List Value}
    (ht : (s.task describe st).1 = .write slot mode e) (hr : e.reduce mode.position = .ok r)
    (hx : (s.query.target.renderFor mode r).exec s.query.params =
      (.error (.unsupported cause), s.query.params.extend vs)) :
    Fault s st (.unsupported cause) (s.query.params.extend vs)

variable {describe}

/-- Only an expression without SQL form can leave more parameters than there were. -/
theorem Fault.params_eq {s : Session κ} {st : Step κ} {err : Error} {p : Parameters}
    (h : s.Fault describe st err p) (herr : ∀ cause, err ≠ .unsupported cause) :
    p = s.query.params := by
  cases h with
  | rendering => exact absurd rfl (herr _)
  | _ => rfl

/-- An expression that does not reduce binds nothing. -/
theorem Fault.params_eq_of_reduce {s : Session κ} {st : Step κ} {err err' : Error} {p : Parameters}
    (h : s.Fault describe st err p) {slot : Slot} {mode : Mode} {e : Expr}
    (ht : (s.task describe st).1 = .write slot mode e) (hr : e.reduce mode.position = .error err') :
    p = s.query.params := by
  cases h with
  | rendering ht' hr' =>
    rw [ht] at ht'
    cases ht'
    rw [hr] at hr'
    cases hr'
  | _ => rfl

variable (describe)

/-- The error of a task comes from one of the places in `Fault`. -/
theorem fault_of_does {s : Session κ} {st : Step κ} {q : Query} {err : Error}
    (h : s.query.Does (s.task describe st).1 (.error err) q) :
    q = { s.query with params := q.params } ∧ s.Fault describe st err q.params := by
  generalize htask : (s.task describe st).1 = task at h
  cases h with
  | failed =>
    obtain ⟨k, hk, hb⟩ := build_of_task_fail describe htask
    obtain ⟨fault, rfl⟩ := Description.build_error hb
    exact ⟨rfl, .lookUp hk hb⟩
  | refused hq => exact ⟨rfl, .built hq⟩
  | unreduced _ hr => exact ⟨rfl, .reduction htask hr⟩
  | unrendered _ hr hx =>
    obtain ⟨⟨cause, rfl⟩, vs, rfl⟩ := Target.renderFor_error hx
    exact ⟨rfl, .rendering htask hr hx⟩
  | conflict _ hp => exact ⟨rfl, .conflict hp⟩

/-- **A failed step leaves everything but the parameters.** They stay too, unless the error was
raised while a reduced expression was rendered, and then they only gain entries. Failed or not, a
step never takes anything from the cache. -/
theorem step_error_frame (s : Session κ) (st : Step κ) :
    s.cache.entries <+: (s.step describe st).2.cache.entries ∧
    ∀ err s', s.step describe st = (.error err, s') →
      (s'.query.clauses = s.query.clauses ∧ s'.query.paged = s.query.paged ∧
        s'.query.sql = s.query.sql) ∧
      s.Fault describe st err s'.query.params ∧
      ((∀ cause, err ≠ .unsupported cause) → s'.query.params = s.query.params) ∧
      ∀ slot mode e, (s.task describe st).1 = .write slot mode e →
        e.reduce mode.position = .error err → s'.query.params = s.query.params := by
  obtain ⟨hdoes, hcache⟩ := s.step_does describe st
  refine ⟨hcache ▸ s.task_cache describe st, fun err s' hs => ?_⟩
  rw [hs] at hdoes
  obtain ⟨hquery, hfault⟩ := fault_of_does describe hdoes
  refine ⟨?_, hfault, hfault.params_eq, fun slot mode e ht hr => hfault.params_eq_of_reduce ht hr⟩
  rw [hquery]
  exact ⟨rfl, rfl, rfl⟩

/-- A constant that is bound before a record is reached stays, and the clauses are as they were. -/
theorem step_error_frame_half_rendered :
    let people : Table := ⟨"Person", "Person", [{ name := "Name", ty := .string }]⟩
    let describe : Unit → Description := fun _ => { entity := "Person", fields := people.fields }
    let s : Session Unit := ⟨⟨[((), people)]⟩, .ofTable {} people⟩
    let same (t : Table) (v : Value) := Expr.binary .eq (t.col "Name") (.const v)
    let st : Step Unit := .filter fun t =>
      .binary .and (same t (.string "x")) (same t (.record [("a", .int 2)]))
    let s' := (s.step describe st).2
    (s.step describe st).1 = .error (.unsupported .recordAsValue) ∧
      s'.query.clauses = s.query.clauses ∧
      s.Fault describe st (.unsupported .recordAsValue) s'.query.params ∧
      s'.query.params.keys = ["@p0"] := by
  intro people describe s same st s'
  have hstep : s.step describe st = (.error (.unsupported .recordAsValue), s') := rfl
  obtain ⟨⟨hclauses, -, -⟩, hfault, -⟩ := (step_error_frame describe s st).2 _ _ hstep
  exact ⟨rfl, hclauses, hfault, by decide⟩

end Session

end SqlCompose
