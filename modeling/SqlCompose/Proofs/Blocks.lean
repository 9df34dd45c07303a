/-
Oracle's blocks, and repeatable plans as plain plans in blocks.

A block holds its statement as a literal and raises every error but those of its operation. To
read a block is to get the statement back, whatever its quotes, and then the handler with the
codes that mean there was nothing to do (`Ddl.readBlock_oracleGuard`, `integers?_commaList`).

Each planner on Oracle runs on its own: the objects of a table are planned, and what numbers its rows
is put in between. Both come to one list of operations with their statements
(`Target.creationSteps`), of which the plain plan has the statements and the repeatable plan the
statements in the blocks of their operations (`planTable_of_oracle`). What drops a table is zipped
with the operations, which are as many (`dropTable_inBlocks`).
-/
import SqlCompose.Number.Decimal.Parser
import SqlCompose.Proofs.Quoting
import SqlCompose.Proofs.TablePlans

namespace SqlCompose

/-! ## Lists of numbers -/

def integer? : List Char → Option Int
  | '-' :: digits => (natural? digits).map fun n : Nat => -(n : Int)
  | digits => (natural? digits).map fun n : Nat => (n : Int)

/-- Integers with commas between them; spaces before one do not count. -/
def integers? (cs : List Char) : Option (List Int) :=
  (cs.splitOn ',').mapM fun item => integer? (item.dropWhile (· = ' '))

theorem digitValue?_of_isDigit {c : Char} (hc : c.isDigit = true) :
    digitValue? c = some (c.toNat - '0'.toNat) := by
  have hle : '0' ≤ c ∧ c ≤ '9' := by
    simpa [Char.isDigit, Char.le_def] using hc
  rw [digitValue?, if_pos hle]

theorem foldlM_digitValue? {digits : List Char} (h : ∀ c ∈ digits, c.isDigit = true) (acc : Nat) :
    digits.foldlM (fun acc c => (digitValue? c).map (acc * 10 + ·)) acc =
      some (Nat.ofDigitChars 10 digits acc) := by
  induction digits generalizing acc with
  | nil => rfl
  | cons c digits ih =>
    rw [List.foldlM_cons, digitValue?_of_isDigit (h c (by simp)), Nat.ofDigitChars_cons,
      Nat.mul_comm 10]
    exact ih (fun d hd => h d (List.mem_cons_of_mem _ hd)) _

theorem natural?_repr (n : Nat) : natural? n.repr.toList = some n := by
  have hne : n.repr.toList.isEmpty = false := by simp
  rw [natural?, hne, if_neg (by decide), foldlM_digitValue? (fun _ => isDigit_of_mem_repr),
    Nat.toList_repr, Nat.ofDigitChars_ten_toDigits]

theorem not_mem_repr {c : Char} (hdigit : c.isDigit = false) (hsign : c ≠ '-') (i : Int) :
    c ∉ i.repr.toList := by
  intro hc
  have hnat : ∀ n : Nat, c ∉ n.repr.toList := fun n hn => by
    rw [isDigit_of_mem_repr hn] at hdigit
    cases hdigit
  rw [Int.repr_eq_if] at hc
  split at hc
  · exact hnat _ hc
  · rw [String.toList_append, List.mem_append] at hc
    obtain hc | hc := hc
    · exact hsign (by simpa using hc)
    · exact hnat _ hc

theorem integer?_repr (i : Int) : integer? i.repr.toList = some i := by
  rw [Int.repr_eq_if]
  split
  · next hi =>
    have hread := natural?_repr i.toNat
    unfold integer?
    split
    · next digits hdigits =>
      have hminus : '-' ∈ i.toNat.repr.toList := by simp [hdigits]
      exact absurd (isDigit_of_mem_repr hminus) (by decide)
    · rw [hread, Option.map_some, Int.toNat_of_nonneg hi]
  · next hi =>
    have htext : ("-" ++ (-i).toNat.repr).toList = '-' :: (-i).toNat.repr.toList := by simp
    rw [htext, integer?, natural?_repr, Option.map_some, Int.toNat_of_nonneg (by omega),
      Int.neg_neg]

theorem splitOn_commaList {s : String} {items : List String}
    (h : ∀ item ∈ s :: items, ',' ∉ item.toList) :
    (commaList (s :: items)).toList.splitOn ',' =
      s.toList :: items.map fun item => ' ' :: item.toList := by
  have hs : ',' ∉ s.toList := h s (by simp)
  induction items generalizing s with
  | nil => exact List.splitOn_eq_singleton hs
  | cons item items ih =>
    have hrest := ih (fun x hx => h x (List.mem_cons_of_mem _ hx)) (h item (by simp))
    have htext : (commaList (s :: item :: items)).toList =
        s.toList ++ ',' :: ' ' :: (commaList (item :: items)).toList := by
      simp [commaList, joinWith_cons_cons]
    rw [htext, List.splitOn_append_cons_self_of_not_mem hs, List.splitOn_cons_eq_if_modifyHead,
      hrest]
    rfl

theorem integer?_dropWhile_repr (i : Int) :
    integer? (i.repr.toList.dropWhile (· = ' ')) = some i := by
  have hspace := not_mem_repr (c := ' ') (by decide) (by decide) i
  have hself : i.repr.toList.dropWhile (· = ' ') = i.repr.toList := by
    cases htext : i.repr.toList with
    | nil => rfl
    | cons c cs =>
      have hc : c ≠ ' ' := by
        rintro rfl
        simp [htext] at hspace
      simp [hc]
  rw [hself, integer?_repr]

theorem integers?_commaList {numbers : List Int} (hne : numbers ≠ []) :
    integers? (commaList (numbers.map Int.repr)).toList = some numbers := by
  obtain ⟨i, rest, rfl⟩ := List.exists_cons_of_ne_nil hne
  have hcomma : ∀ item ∈ i.repr :: rest.map Int.repr, ',' ∉ item.toList := by
    rw [← List.map_cons, List.forall_mem_map]
    exact fun j _ => not_mem_repr (by decide) (by decide) j
  have hrest : (rest.map fun j => ' ' :: j.repr.toList).mapM
      (fun item => integer? (item.dropWhile (· = ' '))) = some rest := by
    simp only [List.mapM_map, Function.comp_def, List.dropWhile_cons, decide_true, if_true,
      integer?_dropWhile_repr]
    exact (List.mapM_pure (f := id)).trans (by simp)
  rw [integers?, List.map_cons, splitOn_commaList hcomma, List.map_map, List.mapM_cons,
    integer?_dropWhile_repr]
  simp only [Function.comp_def, hrest]
  rfl

/-! ## Blocks -/

namespace Ddl

def blockHead : String := "BEGIN\n  EXECUTE IMMEDIATE "

/-- What stands after the literal of a block, with the codes of the errors that are not raised. -/
def exceptionHandler (codes : String) : String :=
  ";\nEXCEPTION\n  WHEN OTHERS THEN\n    IF SQLCODE NOT IN (" ++ codes ++
    ") THEN\n      RAISE;\n    END IF;\nEND;"

/-- The statement that a block runs, and what is left of the block. -/
def readBlock (block : String) : Option (String × List Char) :=
  (strip? blockHead.toList block.toList).bind readLiteral

theorem oracleGuard_eq (op : Op) (statement : String) :
    oracleGuard op statement = blockHead ++
      (quoteLiteral statement ++ exceptionHandler (commaList (op.doneCodes.map Int.repr))) := by
  unfold oracleGuard blockHead exceptionHandler
  simp only [String.append_assoc]

theorem head?_exceptionHandler (codes : String) :
    (exceptionHandler codes).toList.head? = some ';' := by
  have hhead :
      ";\nEXCEPTION\n  WHEN OTHERS THEN\n    IF SQLCODE NOT IN (".toList.head? = some ';' := rfl
  unfold exceptionHandler
  rw [String.append_assoc, String.toList_append, List.head?_append, hhead]
  rfl

theorem readBlock_oracleGuard (op : Op) (statement : String) :
    readBlock (oracleGuard op statement) =
      some (statement, (exceptionHandler (commaList (op.doneCodes.map Int.repr))).toList) := by
  -- The literal ends where it should, since no apostrophe follows it.
  have hstop (codes : String) : (exceptionHandler codes).toList.head? ≠ some apostrophe := by
    rw [head?_exceptionHandler]
    decide
  rw [readBlock, oracleGuard_eq, String.toList_append, String.toList_append, strip?_append,
    Option.bind_some, readLiteral_quoteLiteral (hstop _)]

theorem doneCodes_ne_nil (op : Op) : op.doneCodes ≠ [] := by
  cases op <;> decide

/-- One statement for each operation, and the same statements in the blocks of their operations. -/
structure InBlocks (ops : List Op) (plain guarded : List String) : Prop where
  length_eq : plain.length = ops.length
  guarded_eq : guarded = List.zipWith oracleGuard ops plain

theorem inBlocks_of_steps (steps : List (Op × String)) :
    InBlocks (steps.map (·.1)) (steps.map (·.2)) (steps.map fun s => oracleGuard s.1 s.2) where
  length_eq := by rw [List.length_map, List.length_map]
  guarded_eq := by rw [List.zipWith_map, List.zipWith_self]

end Ddl

/-! ## Plans -/

open Ddl

namespace Table

variable (table : Table)

/-- What a plan for the table does, in its order. -/
def creationOps : List Op :=
  .createTable ::
    ((if table.identityField?.isSome then [.createSequence, .createTrigger] else []) ++
      table.indexes.map (fun _ => .createIndex) ++ table.references.map fun _ => .createForeignKey)

def removalOps : List Op :=
  .dropTable :: if table.identityField?.isSome then [.dropSequence] else []

end Table

namespace Target

variable (t : Target) (table : Table)

/-- The statements of a plan on Oracle, each with its operation. -/
def creationSteps (foreignKeys : List String) : List (Op × String) :=
  (.createTable, "CREATE TABLE " ++ t.tableBody table) ::
    ((table.identityField?.elim [] fun f =>
        [(.createSequence, t.createSequence table (f.identity.getD {})),
          (.createTrigger, t.createTrigger table f)]) ++
      table.indexes.map (fun index => (.createIndex, t.createIndex table index)) ++
      foreignKeys.map fun statement => (.createForeignKey, statement))

theorem map_fst_creationSteps {foreignKeys : List String}
    (hlength : table.references.length = foreignKeys.length) :
    (t.creationSteps table foreignKeys).map (·.1) = table.creationOps := by
  rw [creationSteps, Table.creationOps]
  cases table.identityField? <;> simp [Function.comp_def, List.map_const', hlength]

variable {t}

theorem createForeignKey_of_oracle (hd : t.dialect = .oracle) (f : Field) :
    t.createForeignKey table f = t.addForeignKey table f := by
  rw [createForeignKey, hd]

theorem planForeignKey_of_oracle (hd : t.dialect = .oracle) (guarded : Bool) (f : Field) :
    t.planForeignKey table guarded f =
      (t.createForeignKey table f).map (guardedIf guarded .createForeignKey) := by
  obtain ⟨d, options⟩ := t
  cases hd
  cases guarded with
  | false => exact (congrFun Except.map_id _).symm
  | true => rfl

/-- Both planners go through the same steps, and one of them puts the statements into blocks. -/
theorem planTable_of_oracle (hd : t.dialect = .oracle) {foreignKeys : List String}
    (hkeys : List.Forall₂ (fun f statement => t.createForeignKey table f = .ok statement)
      table.references foreignKeys) (guarded : Bool) :
    t.planTable table guarded =
      .ok ((t.creationSteps table foreignKeys).map fun s => guardedIf guarded s.1 s.2) := by
  have hstatement : t.createTableStatement table guarded =
      .ok (guardedIf guarded .createTable ("CREATE TABLE " ++ t.tableBody table)) := by
    obtain ⟨d, options⟩ := t
    cases hd
    rfl
  have hnumbering := t.numberingStatements_of_oracle table hd guarded
  have hindex : t.planIndex table guarded = fun index =>
      guardedIf guarded .createIndex (t.createIndex table index) := by
    obtain ⟨d, options⟩ := t
    cases hd
    rfl
  have hplanned : table.references.mapM (t.planForeignKey table guarded) =
      .ok (foreignKeys.map (guardedIf guarded .createForeignKey)) := by
    rw [mapM_eq_ok_iff, List.forall₂_map_right_iff]
    refine hkeys.imp fun f statement h => ?_
    rw [planForeignKey_of_oracle table hd, h]
    rfl
  have hseparate : t.separateKeys table = table.references := by
    rw [separateKeys, if_neg (by rw [hd]; decide)]
  rw [planTable_of_statement t table hstatement, hseparate, hplanned, hnumbering, hindex]
  cases hf : table.identityField? <;>
    simp [creationSteps, TablePlan.statements, hf, Function.comp_def, bind, Except.bind, pure,
      Except.pure]

theorem createTable_inBlocks (hd : t.dialect = .oracle) :
    ∃ plain guarded, t.createTable table = .ok plain ∧
      t.createTableIfNotExists table = .ok guarded ∧ InBlocks table.creationOps plain guarded := by
  obtain ⟨foreignKeys, -, hkeys⟩ : ∃ foreignKeys,
      table.references.mapM (t.createForeignKey table) = .ok foreignKeys ∧
        List.Forall₂ (fun f statement => t.createForeignKey table f = .ok statement)
          table.references foreignKeys := by
    refine exists_mapM_eq_ok fun f hf => ?_
    rw [createForeignKey_of_oracle table hd]
    exact (t.exists_addForeignKey table (List.mem_filter.1 hf).2).imp fun _ h => ⟨h, h⟩
  refine ⟨_, _, planTable_of_oracle table hd hkeys false,
    planTable_of_oracle table hd hkeys true, ?_⟩
  rw [← t.map_fst_creationSteps table hkeys.length_eq]
  exact inBlocks_of_steps _

theorem dropTable_inBlocks (hd : t.dialect = .oracle) :
    InBlocks table.removalOps (t.dropTable table) (t.dropTableIfExists table) := by
  rw [dropTableIfExists, dropTable, Table.removalOps, hd]
  cases table.identityField? with
  | none => exact ⟨rfl, rfl⟩
  | some f => exact ⟨rfl, rfl⟩

variable (t) in
/-- Every statement that is to be repeatable is the plain one in the block of its operation. -/
structure Repeatable : Prop where
  createTable : ∀ table, ∃ plain guarded, t.createTable table = .ok plain ∧
    t.createTableIfNotExists table = .ok guarded ∧ InBlocks table.creationOps plain guarded
  dropTable : ∀ table, InBlocks table.removalOps (t.dropTable table) (t.dropTableIfExists table)
  createColumn : ∀ table f, t.createColumnIfNotExists table f =
    .ok (oracleGuard .createColumn (t.createColumn table f))
  dropColumn : ∀ table column, ∃ statement, t.dropColumn table column = .ok statement ∧
    t.dropColumnIfExists table column = .ok (oracleGuard .dropColumn statement)
  createIndex : ∀ table index, t.createIndexIfNotExists table index =
    oracleGuard .createIndex (t.createIndex table index)
  dropIndex : ∀ table index, t.dropIndexIfExists table index =
    oracleGuard .dropIndex (t.dropIndex table index)
  /-- Without a reference there is no statement, repeatable or not. -/
  createForeignKey : ∀ table f, (t.createForeignKey table f).isOk = f.reference.isSome ∧
    t.createForeignKeyIfNotExists table f =
      (t.createForeignKey table f).map (oracleGuard .createForeignKey)
  dropForeignKey : ∀ table name, ∃ statement, t.dropForeignKey table name = .ok statement ∧
    t.dropForeignKeyIfExists table name = .ok (oracleGuard .dropForeignKey statement)

theorem repeatable_of_oracle (hd : t.dialect = .oracle) : t.Repeatable where
  createTable table := createTable_inBlocks table hd
  dropTable table := dropTable_inBlocks table hd
  createColumn table f := by rw [createColumnIfNotExists, hd]
  dropColumn table column := by
    rw [dropColumn, dropColumnIfExists, hd]
    exact ⟨_, rfl, rfl⟩
  createIndex table index := by rw [createIndexIfNotExists, hd]
  dropIndex table index := by rw [dropIndexIfExists, hd]
  createForeignKey table f := by
    refine ⟨?_, planForeignKey_of_oracle table hd true f⟩
    rw [createForeignKey_of_oracle table hd]
    cases hf : f.reference with
    | none =>
      simp only [addForeignKey, foreignKeyName, reference, hf]
      rfl
    | some r =>
      obtain ⟨statement, h⟩ := t.exists_addForeignKey table (f := f) (by rw [hf]; rfl)
      rw [h]
      rfl
  dropForeignKey table name := by
    rw [dropForeignKey, dropForeignKeyIfExists, hd]
    exact ⟨_, rfl, rfl⟩

/-- **On Oracle, what is repeatable is what is plain, in blocks.** The plans for a table go
through the same operations in the same order, and any other conditional statement is the plain
one in a block. A block is read back into its statement, whatever that is, and into a handler for
just the codes that mean there was nothing to do. -/
theorem oracle_repeatable (options : Options) :
    ({ dialect := .oracle, options := options } : Target).Repeatable ∧
    ∀ op statement, ∃ codes numbers,
      readBlock (oracleGuard op statement) = some (statement, (exceptionHandler codes).toList) ∧
      integers? codes.toList = some numbers ∧
      ∀ code, code ∈ numbers ↔ Dialect.oracle.isDone op code = true := by
  refine ⟨repeatable_of_oracle rfl, fun op statement => ?_⟩
  refine ⟨_, _, readBlock_oracleGuard op statement, integers?_commaList (doneCodes_ne_nil op), ?_⟩
  intro code
  simp [Dialect.isDone]

end Target

end SqlCompose
