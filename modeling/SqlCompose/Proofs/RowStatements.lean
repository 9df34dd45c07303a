/-
Statements about one row: when there is none, and what the others name and bind.

A row is a list of names with values. It is refused for the first name that belongs to no field; of
the others, those that the engine numbers and, in an update, those of the key are passed over. Both
loops over a row do to each entry what `foldlM_row` asks for, so their results follow from what one
entry adds: columns, names and parameters grow together (`foldl_add`, `foldl_assign`), and the value
under parameter `i` is that of column `i` (`RowStatement.bind_named_columns`). Selecting by key is
the same as a query that filters by it (`Session.finish_filter_key`).
-/
import SqlCompose.Proofs.Coupling
import SqlCompose.Proofs.DefaultColumns
import SqlCompose.Proofs.Descriptions
import SqlCompose.RowStatement

namespace SqlCompose

/-! ## Rows -/

namespace Table

variable (table : Table)

def firstUnknown? (names : List String) : Option String :=
  names.find? fun n => (table.field? n).isNone

/-- The entries of a row that name a field of a kind. -/
def entriesOf (kind : Field → Bool) (row : List (String × Value)) : List (String × Value) :=
  row.filter fun e => (table.field? e.1).any kind

theorem map_fst_entriesOf (kind : Field → Bool) (row : List (String × Value)) :
    (table.entriesOf kind row).map (·.1) =
      (row.map (·.1)).filter fun n => (table.field? n).any kind := by
  rw [List.filter_map]
  rfl

end Table

namespace RowStatement

variable {σ : Type} {step : σ → String × Value → Except Error σ} {take : σ → String × Value → σ}
  {table : Table} {kind : Field → Bool}

/-- A loop over a row that fails at a name that no field has, passes over the fields that are not of
a kind and takes the others in. It fails for the first unknown name, and otherwise takes in the
entries of that kind. -/
theorem foldlM_row
    (hstep : ∀ s e, step s e = match table.field? e.1 with
      | none => .error (.invalidSchema (.noColumn table.name e.1))
      | some f => .ok (if kind f then take s e else s))
    (row : List (String × Value)) (s : σ) :
    row.foldlM step s = match table.firstUnknown? (row.map (·.1)) with
      | some n => .error (.invalidSchema (.noColumn table.name n))
      | none => .ok ((table.entriesOf kind row).foldl take s) := by
  induction row generalizing s with
  | nil => rfl
  | cons e row ih =>
    rw [List.foldlM_cons, hstep, List.map_cons, Table.firstUnknown?, Table.entriesOf]
    cases hf : table.field? e.1 with
    | none =>
      rw [List.find?_cons_of_pos (by simp [hf])]
      rfl
    | some f =>
      rw [List.find?_cons_of_neg (by simp [hf])]
      change row.foldlM step _ = _
      rw [ih]
      cases hk : kind f <;> simp [hf, hk, Table.firstUnknown?, Table.entriesOf]

end RowStatement

/-! ## What is bound -/

def Target.placeholder (t : Target) (i : Nat) : String := Parameters.key t.dialect.parameterTag i

/-- The statement binds these values, in order and under the first names. -/
structure Statement.Binds (t : Target) (values : List Value) (st : Statement) : Prop where
  entries : st.params.entries = values.mapIdx fun i v => (t.placeholder i, v)
  found : ∀ i, st.params.get? (t.placeholder i) = values[i]?

/-- The parameters of a statement that starts with none and binds these values. -/
def Target.bound (t : Target) (values : List Value) : Parameters :=
  .extend { tag := t.dialect.parameterTag } values

theorem Target.bound_nil (t : Target) : t.bound [] = { tag := t.dialect.parameterTag } := rfl

theorem Statement.binds_bound (t : Target) (sql : String) (values : List Value) :
    Statement.Binds t values ⟨sql, t.bound values⟩ := by
  refine ⟨?_, Parameters.get?_extend _ values⟩
  simp [Target.bound, Parameters.extend, Parameters.size, Target.placeholder]

namespace RowStatement

variable (t : Target) (table : Table)

/-! ## The key -/

/-- The test of the key column against parameter `n`. -/
def keyTest (key : Field) (n : Nat) : String :=
  "(" ++ t.columnRef table.name key.name ++ " = " ++ t.placeholder n ++ ")"

theorem append_keyTest (text : String) (key : Field) (n : Nat) :
    text ++ " WHERE " ++ keyTest t table key n =
      text ++ " WHERE (" ++ t.columnRef table.name key.name ++ " = " ++ t.placeholder n ++ ")" := by
  have hopen : " WHERE (" = " WHERE " ++ "(" := by decide
  simp only [keyTest, hopen, String.append_assoc]

theorem binary_eq_placeholder (left : String) (n : Nat) :
    t.dialect.binary .eq left (t.placeholder n) = "(" ++ left ++ " = " ++ t.placeholder n ++ ")" := by
  have hsign : " = " = " " ++ BinaryOp.eq.symbol ++ " " := by decide
  simp only [Dialect.binary, hsign, String.append_assoc]

theorem idPredicate_bound (values : List Value) (id : Value) :
    idPredicate t table (t.bound values) id = match table.idField? with
      | none => .error (.noSingleKey table.name)
      | some key => .ok (keyTest t table key values.length, t.bound (values ++ [id])) := by
  have hname : (t.bound values).nextKey = t.placeholder values.length := by
    simp [Target.bound, Parameters.nextKey, Parameters.size, Parameters.extend, Target.placeholder]
  have hparams : (t.bound values).push id = t.bound (values ++ [id]) := by
    rw [← Parameters.extend_singleton]
    exact Parameters.extend_extend _ _ _
  unfold idPredicate keyField keyTest
  simp only [hname, hparams, binary_eq_placeholder]
  cases table.idField? <;> rfl

/-! ## Inserting -/

/-- What is added to an insert so that it answers the number of the row. -/
def identityTail : String :=
  (table.identityField?.bind fun f => t.returningIdentity? "" f.name).getD ""

def insertSql (names : List String) : String :=
  "INSERT INTO " ++ t.quoteIdentifier table.name ++
    (if names = [] then " DEFAULT VALUES"
    else " (" ++ commaList (names.map t.quoteIdentifier) ++ ") VALUES (" ++
      commaList ((List.range names.length).map t.placeholder) ++ ")") ++
    identityTail t table

def Insertion.add (s : Insertion) (e : String × Value) : Insertion where
  params := s.params.push e.2
  columns := s.columns ++ [t.quoteIdentifier e.1]
  values := s.values ++ [s.params.nextKey]

theorem insertEntry_eq (s : Insertion) (e : String × Value) :
    insertEntry t table s e = match table.field? e.1 with
      | none => .error (.invalidSchema (.noColumn table.name e.1))
      | some f => .ok (if !f.isIdentity then s.add t e else s) := by
  unfold insertEntry requireField
  cases hf : table.field? e.1 with
  | none => rfl
  | some f =>
    have hname : f.name = e.1 := by simpa using List.find?_some hf
    cases hid : f.isIdentity <;> simp [hid, hname, Insertion.add, bind, Except.bind, pure,
      Except.pure]

/-- Columns, names and values grow side by side, whatever was there before. -/
theorem foldl_add (entries : List (String × Value)) (s : Insertion) :
    entries.foldl (Insertion.add t) s = {
      params := s.params.extend (entries.map (·.2))
      columns := s.columns ++ entries.map fun e => t.quoteIdentifier e.1
      values := s.values ++ (List.range entries.length).map fun i =>
        Parameters.key s.params.tag (s.params.size + i) } := by
  induction entries generalizing s with
  | nil => simp
  | cons e entries ih =>
    rw [List.foldl_cons, ih]
    simp [Insertion.add, ← Parameters.extend_singleton, List.range_succ_eq_map, Parameters.nextKey,
      Function.comp_def, Nat.add_assoc, Nat.add_comm 1]

theorem foldl_add_nil (entries : List (String × Value)) :
    entries.foldl (Insertion.add t) { params := { tag := t.dialect.parameterTag } } = {
      params := t.bound (entries.map (·.2))
      columns := (entries.map (·.1)).map t.quoteIdentifier
      values := (List.range (entries.map (·.1)).length).map t.placeholder } := by
  have hname : t.placeholder = Parameters.key t.dialect.parameterTag := rfl
  rw [foldl_add]
  simp [Parameters.size, hname, Target.bound]

theorem insertText_eq (names : List String) (params : Parameters) :
    insertText t table ⟨params, names.map t.quoteIdentifier,
        (List.range names.length).map t.placeholder⟩ ++ identityTail t table =
      insertSql t table names := by
  unfold insertText insertSql
  simp

theorem returningIdentity?_getD (text : String) :
    (match table.identityField? with
      | some f => (t.returningIdentity? text f.name).getD text
      | none => text) = text ++ identityTail t table := by
  rw [identityTail]
  cases table.identityField? with
  | none => simp
  | some f =>
    rw [Option.bind_some]
    unfold Target.returningIdentity?
    cases t.dialect <;> simp [String.append_assoc]

/-- An insert, or why there is none. -/
theorem insert_eq (row : List (String × Value)) :
    insert t table row = match table.firstUnknown? (row.map (·.1)) with
      | some n => .error (.invalidSchema (.noColumn table.name n))
      | none =>
        let written := table.entriesOf (!·.isIdentity) row
        .ok ⟨insertSql t table (written.map (·.1)), t.bound (written.map (·.2))⟩ := by
  unfold insert
  rw [foldlM_row (insertEntry_eq t table)]
  cases table.firstUnknown? (row.map (·.1)) with
  | some n => rfl
  | none =>
    refine congrArg₂ (fun sql params => (.ok ⟨sql, params⟩ : Except Error Statement)) ?_ ?_
    · rw [foldl_add_nil]
      exact (returningIdentity?_getD t table _).trans (insertText_eq t table _ _)
    · rw [foldl_add_nil]

theorem insert_eq_error_iff (row : List (String × Value)) (err : Error) :
    insert t table row = .error err ↔
      ∃ n, table.firstUnknown? (row.map (·.1)) = some n ∧
        err = .invalidSchema (.noColumn table.name n) := by
  rw [insert_eq]
  cases table.firstUnknown? (row.map (·.1)) <;> simp [eq_comm]

/-! ## Updating -/

def isAssignable (f : Field) : Bool := !f.primaryKey && !f.isIdentity

/-- The update of these columns, for the row with the key under the next name. -/
def updateSql (key : Field) (names : List String) : String :=
  "UPDATE " ++ t.quoteIdentifier table.name ++ " SET " ++
    commaList (names.mapIdx fun i n => t.quoteIdentifier n ++ " = " ++ t.placeholder i) ++
    " WHERE (" ++ t.columnRef table.name key.name ++ " = " ++ t.placeholder names.length ++ ")"

def Revision.add (s : Revision) (e : String × Value) : Revision where
  params := s.params.push e.2
  assignments := s.assignments ++ [t.quoteIdentifier e.1 ++ " = " ++ s.params.nextKey]

theorem updateEntry_eq (s : Revision) (e : String × Value) :
    updateEntry t table s e = match table.field? e.1 with
      | none => .error (.invalidSchema (.noColumn table.name e.1))
      | some f => .ok (if isAssignable f then s.add t e else s) := by
  unfold updateEntry requireField
  cases hf : table.field? e.1 with
  | none => rfl
  | some f =>
    have hname : f.name = e.1 := by simpa using List.find?_some hf
    cases hkey : f.primaryKey <;> cases hid : f.isIdentity <;>
      simp [isAssignable, hkey, hid, hname, Revision.add, bind, Except.bind, pure, Except.pure]

/-- Each assignment names the parameter of its own value, whatever was there before. -/
theorem foldl_assign (entries : List (String × Value)) (s : Revision) :
    entries.foldl (Revision.add t) s = {
      params := s.params.extend (entries.map (·.2))
      assignments := s.assignments ++ (entries.map (·.1)).mapIdx fun i n =>
        t.quoteIdentifier n ++ " = " ++ Parameters.key s.params.tag (s.params.size + i) } := by
  induction entries generalizing s with
  | nil => simp
  | cons e entries ih =>
    rw [List.foldl_cons, ih]
    simp [Revision.add, ← Parameters.extend_singleton, Parameters.nextKey, Nat.add_assoc,
      Nat.add_comm 1]

theorem foldl_assign_nil (entries : List (String × Value)) :
    entries.foldl (Revision.add t) { params := { tag := t.dialect.parameterTag } } = {
      params := t.bound (entries.map (·.2))
      assignments := (entries.map (·.1)).mapIdx fun i n =>
        t.quoteIdentifier n ++ " = " ++ t.placeholder i } := by
  rw [foldl_assign]
  simp [Parameters.size, Target.placeholder, Target.bound]

/-- An update, or why there is none. -/
theorem update_eq (id : Value) (row : List (String × Value)) :
    update t table id row = match table.idField?, table.firstUnknown? (row.map (·.1)) with
      | none, _ => .error (.noSingleKey table.name)
      | some _, some n => .error (.invalidSchema (.noColumn table.name n))
      | some key, none =>
        let assigned := table.entriesOf isAssignable row
        if assigned = [] then .error (.invalidSchema (.assignsNothing table.name))
        else .ok ⟨updateSql t table key (assigned.map (·.1)),
          t.bound (assigned.map (·.2) ++ [id])⟩ := by
  unfold update keyField
  rw [foldlM_row (updateEntry_eq t table)]
  cases hkey : table.idField? with
  | none => rfl
  | some key =>
    cases table.firstUnknown? (row.map (·.1)) with
    | some n => rfl
    | none =>
      rw [foldl_assign_nil]
      simp only [bind, Except.bind, idPredicate_bound, hkey]
      generalize table.entriesOf isAssignable row = assigned
      by_cases hempty : assigned = []
      · subst hempty
        rfl
      · have hsome : ((assigned.map (·.1)).mapIdx fun i n =>
            t.quoteIdentifier n ++ " = " ++ t.placeholder i).isEmpty = false := by simpa using hempty
        unfold updateSql
        simp only [hsome, hempty, Bool.false_eq_true, if_false, List.length_map]
        refine congrArg (fun sql => (.ok ⟨sql, _⟩ : Except Error Statement)) ?_
        exact append_keyTest t table _ key _

/-! ## Deleting and selecting -/

theorem delete_eq (id : Value) :
    delete t table id = match table.idField? with
      | none => .error (.noSingleKey table.name)
      | some key =>
        .ok ⟨"DELETE FROM " ++ t.quoteIdentifier table.name ++ " WHERE " ++ keyTest t table key 0,
          t.bound [id]⟩ := by
  unfold delete
  rw [← t.bound_nil, idPredicate_bound]
  cases table.idField? <;> rfl

theorem select_eq (id : Value) :
    select t table id = match table.idField? with
      | none => .error (.noSingleKey table.name)
      | some key =>
        .ok ⟨"SELECT " ++ t.columnList table ++ " FROM " ++ t.selectableTable table.name ++
          " WHERE " ++ keyTest t table key 0, t.bound [id]⟩ := by
  unfold select
  rw [← t.bound_nil, idPredicate_bound]
  cases table.idField? <;> rfl

/-! ## All four -/

variable {table} in
theorem idField?_eq_none_iff : table.idField? = none ↔ table.primaryKeys.length ≠ 1 := by
  rw [Option.eq_none_iff_forall_ne_some, ne_eq, List.length_eq_one_iff, not_exists]
  exact forall_congr' fun key => not_congr Table.idField?_eq_some_iff

/-- Why a row cannot be updated. The key comes first, then unknown names, then that nothing is left
to assign. -/
inductive UpdateFault (row : List (String × Value)) : Error → Prop
  | key (h : table.primaryKeys.length ≠ 1) : UpdateFault row (.noSingleKey table.name)
  | unknown {n : String} (hkey : table.primaryKeys.length = 1)
    (h : table.firstUnknown? (row.map (·.1)) = some n) :
    UpdateFault row (.invalidSchema (.noColumn table.name n))
  | nothing (hkey : table.primaryKeys.length = 1)
    (hknown : table.firstUnknown? (row.map (·.1)) = none)
    (h : table.entriesOf isAssignable row = []) :
    UpdateFault row (.invalidSchema (.assignsNothing table.name))

theorem update_cases (id : Value) (row : List (String × Value)) :
    (∃ err, UpdateFault table row err ∧ update t table id row = .error err) ∨
    (∃ key, table.primaryKeys = [key] ∧ table.firstUnknown? (row.map (·.1)) = none ∧
      table.entriesOf isAssignable row ≠ [] ∧ update t table id row =
        .ok ⟨updateSql t table key ((table.entriesOf isAssignable row).map (·.1)),
          t.bound ((table.entriesOf isAssignable row).map (·.2) ++ [id])⟩) := by
  rw [update_eq]
  cases hid : table.idField? with
  | none => exact .inl ⟨_, .key (idField?_eq_none_iff.1 hid), rfl⟩
  | some key =>
    have hkey := Table.idField?_eq_some_iff.1 hid
    have hone : table.primaryKeys.length = 1 := by rw [hkey, List.length_singleton]
    cases hknown : table.firstUnknown? (row.map (·.1)) with
    | some n => exact .inl ⟨_, .unknown hone hknown, rfl⟩
    | none =>
      by_cases hempty : table.entriesOf isAssignable row = []
      · exact .inl ⟨_, .nothing hone hknown hempty, by simp [hempty]⟩
      · exact .inr ⟨key, hkey, rfl, hempty, by simp [hempty]⟩

theorem update_eq_error_iff (id : Value) (row : List (String × Value)) (err : Error) :
    update t table id row = .error err ↔ UpdateFault table row err := by
  constructor
  · intro h
    obtain ⟨err', hfault, h'⟩ | ⟨_, _, _, _, h'⟩ := update_cases t table id row
    · rw [h] at h'
      cases h'
      exact hfault
    · rw [h] at h'
      cases h'
  · intro h
    rw [update_eq]
    cases h with
    | key hkey => rw [idField?_eq_none_iff.2 hkey]
    | unknown hkey hn =>
      obtain ⟨key, hkey⟩ := List.length_eq_one_iff.1 hkey
      rw [Table.idField?_eq_some_iff.2 hkey, hn]
    | nothing hkey hknown hempty =>
      obtain ⟨key, hkey⟩ := List.length_eq_one_iff.1 hkey
      rw [Table.idField?_eq_some_iff.2 hkey, hknown]
      simp [hempty]

/-- A statement that only needs the key field fails for want of one, or is written for it. -/
theorem of_key {f : Field → Statement} {x : Except Error Statement}
    (hx : x = match table.idField? with
      | none => .error (.noSingleKey table.name)
      | some key => .ok (f key)) :
    (∀ err, x = .error err ↔ table.primaryKeys.length ≠ 1 ∧ err = .noSingleKey table.name) ∧
      ∀ st, x = .ok st → ∃ key, table.primaryKeys = [key] ∧ st = f key := by
  rw [← idField?_eq_none_iff]
  cases hid : table.idField? with
  | none => simp [hx, hid, eq_comm]
  | some key =>
    have hkey := Table.idField?_eq_some_iff.1 hid
    simp [hx, hid, hkey, eq_comm]

/-! ## Values and texts -/

section Congr

variable {row row' : List (String × Value)}

theorem insert_sql_congr (h : row.map (·.1) = row'.map (·.1)) :
    (insert t table row).map (·.sql) = (insert t table row').map (·.sql) := by
  rw [insert_eq, insert_eq, h]
  cases table.firstUnknown? (row'.map (·.1)) with
  | some n => rfl
  | none => simp only [Except.map, Table.map_fst_entriesOf, h]

theorem update_sql_congr (h : row.map (·.1) = row'.map (·.1)) (id id' : Value) :
    (update t table id row).map (·.sql) = (update t table id' row').map (·.sql) := by
  have hempty (row : List (String × Value)) : table.entriesOf isAssignable row = [] ↔
      (table.entriesOf isAssignable row).map (·.1) = [] := List.map_eq_nil_iff.symm
  rw [update_eq, update_eq, h]
  cases table.idField? with
  | none => rfl
  | some key =>
    cases table.firstUnknown? (row'.map (·.1)) with
    | some n => rfl
    | none =>
      simp only [hempty, Table.map_fst_entriesOf, h]
      split <;> rfl

end Congr

/-- **Statements about a row bind what they name.** An insert fails for the first unknown name and
else writes the entries that the engine does not number, in their order, each under the parameter of
its place. An update needs a key of one field, known names and something to assign; it assigns the
entries that are neither key nor numbered and tests the key against the parameter after them.
Deleting and selecting need the key only. Values are in no text. -/
theorem bind_named_columns :
    (∀ row,
      (∀ err, insert t table row = .error err ↔
        ∃ n, table.firstUnknown? (row.map (·.1)) = some n ∧
          err = .invalidSchema (.noColumn table.name n)) ∧
      ∀ st, insert t table row = .ok st →
        let written := table.entriesOf (!·.isIdentity) row
        st.sql = insertSql t table (written.map (·.1)) ∧ st.Binds t (written.map (·.2))) ∧
    (∀ id row,
      (∀ err, update t table id row = .error err ↔ UpdateFault table row err) ∧
      ∀ st, update t table id row = .ok st →
        let assigned := table.entriesOf isAssignable row
        ∃ key, table.primaryKeys = [key] ∧
          st.sql = updateSql t table key (assigned.map (·.1)) ∧
          st.Binds t (assigned.map (·.2) ++ [id])) ∧
    (∀ id,
      (∀ err, delete t table id = .error err ↔
        table.primaryKeys.length ≠ 1 ∧ err = .noSingleKey table.name) ∧
      ∀ st, delete t table id = .ok st → ∃ key, table.primaryKeys = [key] ∧
        st.sql = "DELETE FROM " ++ t.quoteIdentifier table.name ++ " WHERE (" ++
          t.columnRef table.name key.name ++ " = " ++ t.placeholder 0 ++ ")" ∧
        st.Binds t [id]) ∧
    (∀ id,
      (∀ err, select t table id = .error err ↔
        table.primaryKeys.length ≠ 1 ∧ err = .noSingleKey table.name) ∧
      ∀ st, select t table id = .ok st → ∃ key, table.primaryKeys = [key] ∧
        st.sql = "SELECT " ++ t.columnList table ++ " FROM " ++ t.selectableTable table.name ++
          " WHERE (" ++ t.columnRef table.name key.name ++ " = " ++ t.placeholder 0 ++ ")" ∧
        st.Binds t [id]) ∧
    ∀ id id' row row', row.map (·.1) = row'.map (·.1) →
      (insert t table row).map (·.sql) = (insert t table row').map (·.sql) ∧
      (update t table id row).map (·.sql) = (update t table id' row').map (·.sql) ∧
      (delete t table id).map (·.sql) = (delete t table id').map (·.sql) ∧
      (select t table id).map (·.sql) = (select t table id').map (·.sql) := by
  refine ⟨fun row => ⟨insert_eq_error_iff t table row, fun st h => ?_⟩,
    fun id row => ⟨update_eq_error_iff t table id row, fun st h => ?_⟩, fun id => ?_, fun id => ?_,
    fun id id' row row' h =>
      ⟨insert_sql_congr t table h, update_sql_congr t table h id id', ?_, ?_⟩⟩
  · rw [insert_eq] at h
    split at h
    · cases h
    · cases h
      exact ⟨rfl, Statement.binds_bound t _ _⟩
  · obtain ⟨_, -, h'⟩ | ⟨key, hkey, -, -, h'⟩ := update_cases t table id row
    · rw [h] at h'
      cases h'
    · rw [h] at h'
      cases h'
      exact ⟨key, hkey, rfl, Statement.binds_bound t _ _⟩
  · obtain ⟨herror, hok⟩ := of_key table (delete_eq t table id)
    refine ⟨herror, fun st h => ?_⟩
    obtain ⟨key, hkey, rfl⟩ := hok st h
    exact ⟨key, hkey, append_keyTest t table _ key 0, Statement.binds_bound t _ _⟩
  · obtain ⟨herror, hok⟩ := of_key table (select_eq t table id)
    refine ⟨herror, fun st h => ?_⟩
    obtain ⟨key, hkey, rfl⟩ := hok st h
    exact ⟨key, hkey, append_keyTest t table _ key 0, Statement.binds_bound t _ _⟩
  · rw [delete_eq, delete_eq]
    cases table.idField? <;> rfl
  · rw [select_eq, select_eq]
    cases table.idField? <;> rfl

/-- A row without names but those that the engine numbers, an update with such a name between two
that are assigned, and a row with two unknown names. -/
theorem bind_named_columns_skipped :
    let id : Field := { name := "Id", ty := .long, primaryKey := true, identity := some {} }
    let name : Field := { name := "Name", ty := .string }
    let age : Field := { name := "Age", ty := .integer }
    let people : Table := ⟨"Person", "Person", [id, name, age]⟩
    let t : Target := { dialect := .postgres }
    let row : List (String × Value) := [("Age", .int 7), ("Id", .int 1), ("Name", .string "x")]
    (∃ st, insert t people [("Id", .int 1)] = .ok st ∧ st.Binds t [] ∧
      st.sql = "INSERT INTO \"Person\" DEFAULT VALUES RETURNING \"Id\"") ∧
    (∃ st, update t people (.int 9) row = .ok st ∧ st.Binds t [.int 7, .string "x", .int 9] ∧
      st.sql = "UPDATE \"Person\" SET \"Age\" = @p0, \"Name\" = @p1 " ++
        "WHERE (\"Person\".\"Id\" = @p2)") ∧
    insert t people [("Id", .int 1), ("Size", .int 2), ("Rank", .int 3)] =
      .error (.invalidSchema (.noColumn "Person" "Size")) := by
  intro id name age people t row
  obtain ⟨hinsert, hupdate, -⟩ := bind_named_columns t people
  refine ⟨⟨_, rfl, ?_⟩, ⟨_, rfl, ?_⟩, ?_⟩
  · have h := (hinsert [("Id", .int 1)]).2 _ rfl
    exact ⟨h.2, h.1.trans (by decide)⟩
  · obtain ⟨key, hkey, hsql, hbinds⟩ := (hupdate (.int 9) row).2 _ rfl
    cases hkey
    exact ⟨hbinds, hsql.trans (by decide)⟩
  · exact ((hinsert _).1 _).2 ⟨"Size", by decide, rfl⟩

end RowStatement

/-! ## The same as a query -/

theorem Clauses.assemble_condition {c : Clauses} {text : String} (hformat : c.format = {})
    (hfilter : c.filter = ⟨text, 1⟩) (htext : isBlank text = false) (hwindow : c.rowWindow = "")
    (hgroup : c.groupBy = "") (hhaving : c.having = {}) (horder : c.orderBy = "")
    (hending : c.ending = "") (order : Option String) :
    c.assemble order = "SELECT " ++ c.columns ++ " FROM " ++ c.source ++ " WHERE " ++ text := by
  have hwhere (s : String) : " WHERE " ++ s = " " ++ ("WHERE" ++ (" " ++ s)) := by
    simp only [← String.append_assoc]
    rfl
  simp [assemble, SelectFormat.apply, whereBody, clause, sortBody, hformat, hfilter, htext, hwindow,
    hgroup, hhaving, horder, hending, hwhere, String.append_assoc]

namespace Target

variable (t : Target) {table : Table} {key : Field} {v : Value}

/-- The test of a column against a value binds the value and nothing else. -/
theorem exec_compile_eq (hkey : key ∈ table.fields) (hv : v.isBound = true) (p : Parameters) :
    (t.compile .predicate (.binary .eq (table.col key.name) (.const v))).exec p =
      (.ok (t.dialect.binary .eq (t.columnRef table.name key.name) p.nextKey), p.push v) := by
  have hnormal : Expr.NormalAt .predicate (.binary .eq (table.col key.name) (.const v)) :=
    ⟨⟨nofun, Expr.settled_col hkey, trivial⟩, fun _ => rfl⟩
  have hnull : (Expr.const v).isNull = false := by
    cases v <;> first | rfl | cases hv
  have hleft : (t.render (table.col key.name)).exec p =
      (.ok (t.columnRef table.name key.name), p) := rfl
  have hright : (t.render (.const v)).exec p = (.ok p.nextKey, p.push v) := by
    rw [render, t.renderValue_of_isBound hv, Binder.exec_bindValue]
  -- There is nothing to reduce, and neither side is null, so the test is not one for null.
  rw [compile_eq, reduced, Mode.position, Expr.reduce_of_normalAt _ _ hnormal]
  change (t.render (.binary .eq (table.col key.name) (.const v))).exec p = _
  rw [render, hnull, Bool.and_false, if_neg Bool.false_ne_true]
  have hcolumn : (table.col key.name).isNull = false := rfl
  rw [hcolumn, Bool.and_false, if_neg Bool.false_ne_true, Binder.exec_bind_ok hleft,
    Binder.exec_bind_ok hright, Binder.exec_pure]

end Target

namespace Query

variable {t : Target} {table : Table} {key : Field} {v : Value}

theorem filter_column (hkey : key ∈ table.fields) (hv : v.isBound = true) :
    ∃ q, (ofTable t table).filter (fun table => .binary .eq (table.col key.name) (.const v)) =
        (.ok (), q) ∧
      q.finish =
        ("SELECT " ++ t.columnList table ++ " FROM " ++ t.selectableTable table.name ++ " WHERE " ++
          RowStatement.keyTest t table key 0, t.bound [v]) := by
  have hcompile := t.exec_compile_eq hkey hv (ofTable t table).params
  have htest : t.dialect.binary .eq (t.columnRef table.name key.name)
      (ofTable t table).params.nextKey = RowStatement.keyTest t table key 0 :=
    RowStatement.binary_eq_placeholder t _ 0
  rw [htest] at hcompile
  refine ⟨_, place_of_ok (q := ofTable t table) rfl hcompile, ?_⟩
  have hopen : isBlank "(" = false := by decide
  have htext : isBlank (RowStatement.keyTest t table key 0) = false := by
    simp [RowStatement.keyTest, isBlank_append, hopen]
  rw [Bare.finish ⟨rfl, rfl, List.ne_nil_of_mem hkey⟩,
    Clauses.assemble_condition rfl rfl htext rfl rfl rfl rfl rfl]
  rfl

end Query

namespace Session

variable {κ : Type} [DecidableEq κ] (describe : κ → Description)

/-- **Selecting by key is filtering by it.** A query over a table with a key of one field that is
filtered by that field, and by nothing else, is handed over as the statement that selects by key,
with the same parameters. -/
theorem finish_filter_key {target : Target} {k : κ} {cache : Cache κ} {s₀ : Session κ}
    (h : start describe target k cache = .ok s₀) {key : Field}
    (hkey : s₀.query.table.primaryKeys = [key]) {v : Value} (hv : v.isBound = true) :
    let byKey : Step κ := .filter fun table => .binary .eq (table.col key.name) (.const v)
    let q := (s₀.run describe [byKey]).query
    (s₀.step describe byKey).1 = .ok none ∧
      RowStatement.select target s₀.query.table v = .ok ⟨q.finish.1, q.finish.2⟩ := by
  intro byKey q
  obtain ⟨table, hquery⟩ := query_of_start describe h
  have hmem : key ∈ table.fields := by
    rw [hquery] at hkey
    have : key ∈ table.primaryKeys := hkey ▸ List.mem_singleton_self key
    exact List.mem_of_mem_filter this
  obtain ⟨q', hfilter, hfinish⟩ := Query.filter_column (t := target) hmem hv
  have hstep : s₀.step describe byKey = (.ok none, { s₀ with query := q' }) := by
    rw [step, onQuery, hquery, hfilter]
    rfl
  have hq : q = q' := by
    change (s₀.run describe [byKey]).query = q'
    rw [run_cons, hstep, run_nil]
  refine ⟨by rw [hstep], ?_⟩
  rw [RowStatement.select_eq, Table.idField?_eq_some_iff.2 hkey, hq, hfinish, hquery]
  rfl

/-- The key is the second column, and rows are read without a lock. -/
theorem finish_filter_key_no_lock :
    let serial : Field := { name := "Serial]No", ty := .string, primaryKey := true }
    let parts : Table := ⟨"Part", "Part", [{ name := "Name", ty := .string }, serial]⟩
    let describe : Unit → Description := fun _ => { entity := "Part", fields := parts.fields }
    let t : Target := { dialect := .sqlServer, options := { sqlServerNoLock := true } }
    let s₀ : Session Unit := ⟨⟨[((), parts)]⟩, .ofTable t parts⟩
    let byKey : Step Unit :=
      .filter fun table => .binary .eq (table.col "Serial]No") (.const (.string "x"))
    let q := (s₀.run describe [byKey]).query
    start describe t () {} = .ok s₀ ∧
      RowStatement.select t parts (.string "x") = .ok ⟨q.finish.1, q.finish.2⟩ ∧
      q.finish.1 = "SELECT [Part].[Name], [Part].[Serial]]No] FROM [Part] WITH (NOLOCK) " ++
        "WHERE ([Part].[Serial]]No] = @p0)" ∧
      q.finish.2.keys = ["@p0"] := by
  intro serial parts describe t s₀ byKey q
  have h : start describe t () {} = .ok s₀ := rfl
  have hkey : s₀.query.table.primaryKeys = [serial] := by decide
  have hv : (Value.string "x").isBound = true := rfl
  exact ⟨h, (finish_filter_key describe h hkey hv).2, by decide, by decide⟩

end Session

end SqlCompose
