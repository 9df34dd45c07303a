/-
Plans for tables: when there is none, and what is in one.

A plan is the statement of the table, what numbers its rows on Oracle, its indexes and its foreign
keys (`Target.Plans`), each with its text (`indexText`, `keyText`, `sequenceText`, `triggerText`).
Only two things stand in the way: SQLite numbers no rows beside the key, and the generic engine has
no way to create a foreign key unless it is there. `planTable_cases` says which of the three comes of
planning, and `createTable_plan` what that means for a table that was built.
-/
import Mathlib.Data.List.Forall2
import SqlCompose.Proofs.ReduceMeaning
import SqlCompose.Proofs.Statements
import SqlCompose.Proofs.TableBodies
import SqlCompose.Schema.Description

namespace SqlCompose

theorem mapM_eq_ok_iff {α β : Type} {f : α → Except Error β} {xs : List α} {ys : List β} :
    xs.mapM f = .ok ys ↔ List.Forall₂ (fun x y => f x = .ok y) xs ys := by
  induction xs generalizing ys with
  | nil =>
    rw [List.mapM_nil, List.forall₂_nil_left_iff]
    exact ⟨fun h => by cases h; rfl, fun h => by rw [h]; rfl⟩
  | cons x xs ih =>
    rw [List.mapM_cons, bind_eq_ok]
    constructor
    · rintro ⟨y, hy, h⟩
      obtain ⟨ys', hys, h⟩ := bind_eq_ok.1 h
      cases h
      exact .cons hy (ih.1 hys)
    · rintro (_ | ⟨hy, hys⟩)
      exact ⟨_, hy, bind_eq_ok.2 ⟨_, ih.2 hys, rfl⟩⟩

theorem exists_mapM_eq_ok {α β : Type} {f : α → Except Error β} {R : α → β → Prop} {xs : List α}
    (h : ∀ x ∈ xs, ∃ y, f x = .ok y ∧ R x y) :
    ∃ ys, xs.mapM f = .ok ys ∧ List.Forall₂ R xs ys := by
  induction xs with
  | nil => exact ⟨[], rfl, .nil⟩
  | cons x xs ih =>
    obtain ⟨y, hy, hR⟩ := h x (by simp)
    obtain ⟨ys, hys, hRs⟩ := ih fun x' hx' => h x' (by simp [hx'])
    exact ⟨y :: ys, mapM_eq_ok_iff.2 (.cons hy (mapM_eq_ok_iff.1 hys)), .cons hR hRs⟩

/-! ## Identities of built tables -/

/-- A table that was built has at most one identity. -/
theorem Description.countP_isIdentity_of_build {d : Description} {table : Table}
    (h : d.build = .ok table) : table.fields.countP (·.isIdentity) ≤ 1 := by
  unfold build at h
  split at h
  · cases h
  · split at h
    · cases h
    · next hone =>
      cases h
      exact Nat.not_lt.1 hone

namespace Table

variable {table : Table}

theorem identityField?_eq_some (hone : table.fields.countP (·.isIdentity) ≤ 1) {f : Field}
    (hf : f ∈ table.fields) (hid : f.isIdentity = true) : table.identityField? = some f := by
  -- The first identity is `f`, since there is no other.
  have hmem : f ∈ table.fields.filter (·.isIdentity) := List.mem_filter.2 ⟨hf, hid⟩
  rw [List.countP_eq_length_filter] at hone
  rw [identityField?, ← List.head?_filter]
  generalize table.fields.filter (·.isIdentity) = identities at hone hmem ⊢
  match identities, hone with
  | [], _ => cases hmem
  | [g], _ =>
    rw [List.mem_singleton.1 hmem]
    rfl
  | _ :: _ :: _, hone => simp at hone

/-- An identity field that is not the whole key. -/
def NumbersBesideKey (table : Table) : Prop :=
  ∃ f ∈ table.fields, f.isIdentity = true ∧ table.primaryKeys ≠ [f]

theorem identityFits_eq_false_iff (hone : table.fields.countP (·.isIdentity) ≤ 1) :
    Target.identityFits table = false ↔ table.NumbersBesideKey := by
  rw [Target.identityFits]
  constructor
  · intro h
    split at h
    · next f hf =>
      have hmem : f ∈ table.fields := List.mem_of_find?_eq_some hf
      refine ⟨f, hmem, List.find?_some hf, fun hkey => ?_⟩
      rw [(Target.isSoleKey_iff hmem).2 hkey] at h
      cases h
    · cases h
  · rintro ⟨f, hf, hid, hkey⟩
    rw [identityField?_eq_some hone hf hid]
    rw [← Bool.not_eq_true, Target.isSoleKey_iff hf]
    exact hkey

theorem references_ne_nil_iff : table.references ≠ [] ↔ ∃ f ∈ table.fields, f.reference.isSome := by
  rw [references, ne_eq, List.filter_eq_nil_iff]
  push Not
  rfl

end Table

namespace Target

open Ddl

variable (t : Target) (table : Table)

/-! ## Indexes -/

/-- The statement of an index, under its own name or one made up of its table and columns. If it is
`guarded`, it does nothing where there is one of that name. -/
def indexText (guarded : Bool) (index : Index) : String :=
  let name := index.name.getD (cutName t.options.maxConstraintName
    ("IX_" ++ table.name ++ "_" ++ joinWith "_" index.columns))
  let create := if index.unique then "CREATE UNIQUE INDEX " else "CREATE INDEX "
  let place := t.quoteIdentifier name ++ " ON " ++ t.quoteIdentifier table.name ++ " (" ++
    commaList (index.columns.map t.quoteIdentifier) ++ ")"
  match t.dialect, guarded with
  | _, false => create ++ place
  | .mySql, true => mySqlGuard (t.dialect.indexProbe table.name name) (create ++ place) false
  | .sqlServer, true =>
    "IF NOT EXISTS (SELECT * FROM sys.indexes WHERE name = " ++ ("N" ++ quoteLiteral name) ++
      " AND object_id = OBJECT_ID(" ++ ("N" ++ quoteLiteral table.name) ++ ")) " ++
      (create ++ place)
  | .oracle, true => oracleGuard .createIndex (create ++ place)
  | _, true => create ++ "IF NOT EXISTS " ++ place

theorem planIndex_eq (guarded : Bool) (index : Index) :
    t.planIndex table guarded index = t.indexText table guarded index := by
  have hstatement (condition : String) : t.indexStatement table index condition =
      (if index.unique then "CREATE UNIQUE INDEX " else "CREATE INDEX ") ++ condition ++
        (t.quoteIdentifier (t.indexName table index) ++ " ON " ++ t.quoteIdentifier table.name ++
          " (" ++ commaList (index.columns.map t.quoteIdentifier) ++ ")") := by
    have hunique : "CREATE UNIQUE INDEX " = "CREATE " ++ ("UNIQUE " ++ "INDEX ") := by decide
    have hplain : "CREATE INDEX " = "CREATE " ++ "INDEX " := by decide
    unfold indexStatement
    cases index.unique <;> simp [hunique, hplain, String.append_assoc]
  have hcreate := hstatement ""
  rw [String.append_empty] at hcreate
  have hname : t.indexName table index = index.name.getD (cutName t.options.maxConstraintName
      ("IX_" ++ table.name ++ "_" ++ joinWith "_" index.columns)) := rfl
  unfold planIndex createIndexIfNotExists createIndex indexText indexCondition
  rw [hcreate, hstatement, ← hname]
  obtain ⟨d, options⟩ := t
  cases guarded <;> cases d <;> rfl

/-! ## Foreign keys -/

/-- The statement of a foreign key, under its own name or one made up of what it joins. If it is
`guarded`, it does nothing where there is one of that name; the generic engine and SQLite have no
words for that. -/
def keyText (guarded : Bool) (f : Field) (r : Reference) : String :=
  let name := r.constraint.getD (cutName t.options.maxConstraintName
    ("FK_" ++ joinWith "_" [table.name, f.name, r.table, r.column]))
  let create := t.keyStatement table f r name
  match t.dialect, guarded with
  | .mySql, true => mySqlGuard (t.dialect.foreignKeyProbe table.name name) create false
  | .postgres, true => postgresGuard name create
  | .sqlServer, true =>
    "IF OBJECT_ID(" ++ ("N" ++ quoteLiteral name) ++ ", N'F') IS NULL " ++ create
  | .oracle, true => oracleGuard .createForeignKey create
  | _, _ => create

theorem exists_foreignKeyName {f : Field} (hf : f.reference.isSome) :
    ∃ name, t.foreignKeyName table f = .ok name := by
  obtain ⟨r, hr⟩ := Option.isSome_iff_exists.1 hf
  simp only [foreignKeyName, reference, hr]
  exact ⟨_, rfl⟩

theorem exists_addForeignKey {f : Field} (hf : f.reference.isSome) :
    ∃ statement, t.addForeignKey table f = .ok statement := by
  obtain ⟨r, hr⟩ := Option.isSome_iff_exists.1 hf
  obtain ⟨name, hname⟩ := t.exists_foreignKeyName table hf
  exact ⟨_, addForeignKey_eq hr hname⟩

theorem planForeignKey_eq {guarded : Bool} (hd : t.dialect ≠ .sqlite)
    (hg : t.dialect = .generic → guarded = false) {f : Field} {r : Reference}
    (hr : f.reference = some r) :
    t.planForeignKey table guarded f = .ok (t.keyText table guarded f r) := by
  have hname : t.foreignKeyName table f = .ok (r.constraint.getD
      (cutName t.options.maxConstraintName (madeUpForeignKey table f r))) := by
    simp only [foreignKeyName, reference, hr]
    rfl
  have hadd := addForeignKey_eq hr hname
  unfold keyText
  obtain ⟨d, options⟩ := t
  cases d with
  | sqlite => exact absurd rfl hd
  | generic =>
    rw [hg rfl]
    exact hadd
  | _ =>
    cases guarded with
    | false => exact hadd
    | true =>
      simp only [planForeignKey, createForeignKeyIfNotExists, hname, hadd]
      rfl

theorem planForeignKey_of_generic (hd : t.dialect = .generic) (f : Field) :
    t.planForeignKey table true f =
      .error (.unsupportedFeature .generic .idempotentForeignKey) := by
  obtain ⟨d, options⟩ := t
  cases hd
  rfl

/-- The fields whose foreign keys are statements of their own. SQLite has them in the columns. -/
def separateKeys : List Field := if t.dialect = .sqlite then [] else table.references

theorem mapM_planForeignKey {guarded : Bool}
    (hg : t.dialect = .generic → guarded = false ∨ table.references = []) :
    ∃ statements, (t.separateKeys table).mapM (t.planForeignKey table guarded) = .ok statements ∧
      List.Forall₂ (fun f statement => ∃ r, f.reference = some r ∧
        statement = t.keyText table guarded f r) (t.separateKeys table) statements := by
  refine exists_mapM_eq_ok fun f hf => ?_
  rw [separateKeys] at hf
  split at hf
  · cases hf
  · next hd =>
    obtain ⟨r, hr⟩ := Option.isSome_iff_exists.1 (List.mem_filter.1 hf).2
    refine ⟨_, t.planForeignKey_eq table hd (fun hgeneric => ?_) hr, r, hr, rfl⟩
    exact (hg hgeneric).resolve_right (List.ne_nil_of_mem hf)

end Target

/-! ## Plans -/

/-- A plan by what its statements are for. -/
structure TablePlan where
  creation : String
  numbering : List String
  indexes : List String
  foreignKeys : List String

def TablePlan.statements (p : TablePlan) : List String :=
  p.creation :: (p.numbering ++ p.indexes ++ p.foreignKeys)

namespace Target

variable (t : Target) (table : Table)

def sequenceText (i : Identity) : String :=
  "CREATE SEQUENCE " ++ t.quoteIdentifier ("SEQ_" ++ table.name) ++ " START WITH " ++
    int64Text i.start ++ " INCREMENT BY " ++ int64Text i.increment

/-- Oracle's trigger that draws a number of the sequence for each row without one. -/
def triggerText (column : String) : String :=
  "CREATE TRIGGER " ++ t.quoteIdentifier ("TRG_" ++ table.name) ++ " BEFORE INSERT ON " ++
    t.quoteIdentifier table.name ++ " FOR EACH ROW WHEN (new." ++ t.quoteIdentifier column ++
    " IS NULL) BEGIN SELECT " ++ t.quoteIdentifier ("SEQ_" ++ table.name) ++
    ".NEXTVAL INTO :new." ++ t.quoteIdentifier column ++ " FROM DUAL; END;"

/-- A statement, in Oracle's block when it has to be repeatable. -/
def guardedIf (guarded : Bool) (op : Ddl.Op) (statement : String) : String :=
  if guarded then Ddl.oracleGuard op statement else statement

/-- What a plan has to be; `guarded` if its statements are to be repeatable. -/
structure Plans (guarded : Bool) (p : TablePlan) : Prop where
  creation : ∃ lines, t.Declares table lines ∧
    p.creation = t.creationText table guarded (t.bodyText table lines)
  /-- A sequence and a trigger, where the engine is Oracle and there are rows to number. -/
  numbered : t.dialect = .oracle → ∀ f i, table.identityField? = some f → f.identity = some i →
    p.numbering =
      [ guardedIf guarded .createSequence (t.sequenceText table i),
        guardedIf guarded .createTrigger (t.triggerText table f.name) ]
  unnumbered : t.dialect ≠ .oracle ∨ table.identityField? = none → p.numbering = []
  indexes : p.indexes = table.indexes.map (t.indexText table guarded)
  foreignKeys : List.Forall₂
    (fun f statement => ∃ r, f.reference = some r ∧ statement = t.keyText table guarded f r)
    (t.separateKeys table) p.foreignKeys

def numberingStatements (guarded : Bool) : List String :=
  match t.dialect, table.identityField? with
  | .oracle, some f => t.identityStatements table f (f.identity.getD {}) guarded
  | _, _ => []

theorem numberingStatements_of_oracle (hd : t.dialect = .oracle) (guarded : Bool) :
    t.numberingStatements table guarded = table.identityField?.elim [] fun f =>
      [ guardedIf guarded .createSequence (t.createSequence table (f.identity.getD {})),
        guardedIf guarded .createTrigger (t.createTrigger table f) ] := by
  rw [numberingStatements, hd]
  cases table.identityField? with
  | none => rfl
  | some f => cases guarded <;> rfl

theorem numberingStatements_eq_nil (h : t.dialect ≠ .oracle ∨ table.identityField? = none)
    (guarded : Bool) : t.numberingStatements table guarded = [] := by
  unfold numberingStatements
  split
  · next hd hf => simp [hd, hf] at h
  · rfl

/-- What numbers the rows goes in after the first statement, on any engine. -/
theorem planTable_eq (guarded : Bool) :
    t.planTable table guarded = (t.planObjects table guarded).map fun statements =>
      statements.take 1 ++ t.numberingStatements table guarded ++ statements.drop 1 := by
  unfold planTable numberingStatements
  cases t.planObjects table guarded with
  | error err => rfl
  | ok statements =>
    have hself : statements.take 1 ++ statements.tail = statements := by
      simpa using List.take_append_drop 1 statements
    cases t.dialect <;> cases table.identityField? <;>
      simp [hself, bind, Except.bind, pure, Except.pure, Except.map]

/-- Once the table has its statement, planning goes on with the foreign keys. -/
theorem planTable_of_statement {guarded : Bool} {creation : String}
    (h : t.createTableStatement table guarded = .ok creation) :
    t.planTable table guarded = do
      let foreignKeys ← (t.separateKeys table).mapM (t.planForeignKey table guarded)
      return TablePlan.statements
        { creation
          numbering := t.numberingStatements table guarded
          indexes := table.indexes.map (t.planIndex table guarded)
          foreignKeys } := by
  have hobjects : t.planObjects table guarded = do
      let foreignKeys ← (t.separateKeys table).mapM (t.planForeignKey table guarded)
      return creation :: table.indexes.map (t.planIndex table guarded) ++ foreignKeys := by
    rw [planObjects, h]
    by_cases hd : t.dialect = .sqlite <;> simp [inlineForeignKeys, separateKeys, hd, bind, Except.bind]
  rw [planTable_eq, hobjects]
  cases (t.separateKeys table).mapM (t.planForeignKey table guarded) with
  | error err => rfl
  | ok foreignKeys => simp [bind, Except.bind, pure, Except.pure, Except.map, TablePlan.statements]

theorem plans_of_forall₂ {guarded : Bool} {lines : List BodyLine} (hlines : t.Declares table lines)
    {foreignKeys : List String}
    (hkeys : List.Forall₂
      (fun f statement => ∃ r, f.reference = some r ∧ statement = t.keyText table guarded f r)
      (t.separateKeys table) foreignKeys) :
    t.Plans table guarded
      { creation := t.creationText table guarded (t.bodyText table lines)
        numbering := t.numberingStatements table guarded
        indexes := table.indexes.map (t.planIndex table guarded)
        foreignKeys } where
  creation := ⟨lines, hlines, rfl⟩
  numbered hd f i hf hi := by
    rw [t.numberingStatements_of_oracle table hd, hf, Option.elim_some, hi]
    rfl
  unnumbered hno := t.numberingStatements_eq_nil table hno guarded
  indexes := List.map_congr_left fun index _ => t.planIndex_eq table guarded index
  foreignKeys := hkeys

/-- Planning fails on an identity beside the key of a SQLite table, fails on a foreign key that the
generic engine is to create if it is not there, or gives a plan. -/
theorem planTable_cases (guarded : Bool) :
    ((t.dialect = .sqlite ∧ identityFits table = false) ∧
      t.planTable table guarded = .error (.unsupportedFeature .sqlite .identityBesideKey)) ∨
    ((t.dialect = .generic ∧ guarded = true ∧ table.references ≠ []) ∧
      t.planTable table guarded = .error (.unsupportedFeature .generic .idempotentForeignKey)) ∨
    (¬ (t.dialect = .sqlite ∧ identityFits table = false) ∧
      ¬ (t.dialect = .generic ∧ guarded = true ∧ table.references ≠ []) ∧
      ∃ p, t.planTable table guarded = .ok p.statements ∧ t.Plans table guarded p) := by
  have hstatement := t.createTableStatement_eq table guarded
  by_cases hfits : t.dialect = .sqlite ∧ identityFits table = false
  · rw [if_pos hfits] at hstatement
    refine .inl ⟨hfits, ?_⟩
    rw [planTable_eq, planObjects, hstatement]
    rfl
  rw [if_neg hfits] at hstatement
  have hplan := t.planTable_of_statement table hstatement
  by_cases hkeys : t.dialect = .generic ∧ guarded = true ∧ table.references ≠ []
  · obtain ⟨hd, rfl, hne⟩ := hkeys
    refine .inr (.inl ⟨⟨hd, rfl, hne⟩, ?_⟩)
    -- The first of the foreign keys is refused, so the others do not matter.
    obtain ⟨f, rest, hrest⟩ := List.exists_cons_of_ne_nil hne
    have hseparate : t.separateKeys table = f :: rest := by
      rw [separateKeys, if_neg (by rw [hd]; decide), hrest]
    rw [hplan, hseparate, List.mapM_cons, t.planForeignKey_of_generic table hd]
    rfl
  · refine .inr (.inr ⟨hfits, hkeys, ?_⟩)
    have hg : t.dialect = .generic → guarded = false ∨ table.references = [] := by
      intro hd
      by_contra! h
      exact hkeys ⟨hd, by simpa using h.1, h.2⟩
    obtain ⟨foreignKeys, hmapM, htexts⟩ := t.mapM_planForeignKey table hg
    exact ⟨_, by rw [hplan, hmapM]; rfl,
      t.plans_of_forall₂ table (t.declares_bodyLines table) htexts⟩

variable {table} in
theorem planTable_eq_error_iff (hone : table.fields.countP (·.isIdentity) ≤ 1) (guarded : Bool)
    (err : Error) :
    t.planTable table guarded = .error err ↔
      (t.dialect = .sqlite ∧ table.NumbersBesideKey) ∧
        err = .unsupportedFeature .sqlite .identityBesideKey ∨
      (t.dialect = .generic ∧ guarded = true ∧ ∃ f ∈ table.fields, f.reference.isSome) ∧
        err = .unsupportedFeature .generic .idempotentForeignKey := by
  rw [← Table.identityFits_eq_false_iff hone, ← Table.references_ne_nil_iff]
  obtain ⟨hfits, h⟩ | ⟨hkeys, h⟩ | ⟨hfits, hkeys, p, h, -⟩ := t.planTable_cases table guarded
  · rw [h, Except.error.injEq]
    simpa [hfits] using eq_comm
  · rw [h, Except.error.injEq]
    simpa [hkeys] using eq_comm
  · rw [h]
    simp [hfits, hkeys]

theorem plans_of_planTable {guarded : Bool} {plan : List String}
    (h : t.planTable table guarded = .ok plan) :
    ∃ p, p.statements = plan ∧ t.Plans table guarded p := by
  obtain ⟨-, hplan⟩ | ⟨-, hplan⟩ | ⟨-, -, p, hplan, hp⟩ := t.planTable_cases table guarded
  · rw [h] at hplan
    cases hplan
  · rw [h] at hplan
    cases hplan
  · rw [h] at hplan
    cases hplan
    exact ⟨p, rfl, hp⟩

variable {table}

/-- **Every table has its plan**, except for an identity beside the key on SQLite and for foreign
keys that the generic engine is to create if they are not there. A plan is the table with its
columns and its key, what numbers its rows, its indexes and its foreign keys, all in order. -/
theorem createTable_plan {d : Description} (hb : d.build = .ok table) :
    (∀ err, t.createTable table = .error err ↔
      (t.dialect = .sqlite ∧ table.NumbersBesideKey) ∧
        err = .unsupportedFeature .sqlite .identityBesideKey) ∧
    (∀ err, t.createTableIfNotExists table = .error err ↔
      (t.dialect = .sqlite ∧ table.NumbersBesideKey) ∧
        err = .unsupportedFeature .sqlite .identityBesideKey ∨
      (t.dialect = .generic ∧ ∃ f ∈ table.fields, f.reference.isSome) ∧
        err = .unsupportedFeature .generic .idempotentForeignKey) ∧
    (∀ plan, t.createTable table = .ok plan →
      ∃ p, p.statements = plan ∧ t.Plans table false p) ∧
    ∀ plan, t.createTableIfNotExists table = .ok plan →
      ∃ p, p.statements = plan ∧ t.Plans table true p := by
  have hone := Description.countP_isIdentity_of_build hb
  refine ⟨fun err => ?_, fun err => ?_, fun plan => t.plans_of_planTable table,
    fun plan => t.plans_of_planTable table⟩
  · rw [createTable, t.planTable_eq_error_iff hone]
    simp
  · rw [createTableIfNotExists, t.planTable_eq_error_iff hone]
    simp

/-- Lines of orders, numbered beside the reference that is the other half of the key. Oracle has a
plan for them and two engines refuse. -/
theorem createTable_plan_identity_beside_key :
    let order : Field :=
      { name := "Order", ty := .long, primaryKey := true,
        reference := some { table := "Order", column := "Id" } }
    let number : Field := { name := "No", ty := .integer, primaryKey := true, identity := some {} }
    let d : Description := { entity := "Line", fields := [order, number] }
    let table : Table := ⟨"Line", "Line", [order, number]⟩
    d.build = .ok table ∧
    createTable { dialect := .sqlite } table =
      .error (.unsupportedFeature .sqlite .identityBesideKey) ∧
    createTableIfNotExists { dialect := .generic } table =
      .error (.unsupportedFeature .generic .idempotentForeignKey) ∧
    ∃ p : TablePlan, createTable { dialect := .oracle } table = .ok p.statements ∧
      Plans { dialect := .oracle } table false p := by
  intro order number d table
  have hb : d.build = .ok table := rfl
  obtain ⟨hsqlite, -⟩ := createTable_plan { dialect := .sqlite } hb
  obtain ⟨-, hgeneric, -⟩ := createTable_plan { dialect := .generic } hb
  obtain ⟨-, -, horacle, -⟩ := createTable_plan { dialect := .oracle } hb
  refine ⟨hb, (hsqlite _).2 ⟨⟨rfl, number, ?_, ?_, ?_⟩, rfl⟩,
    (hgeneric _).2 (.inr ⟨⟨rfl, order, ?_, ?_⟩, rfl⟩), ?_⟩
  · simp [table]
  · rfl
  · decide
  · simp [table]
  · rfl
  · obtain ⟨p, hp, hplans⟩ := horacle _ rfl
    exact ⟨p, by rw [hp]; rfl, hplans⟩

end Target

end SqlCompose
