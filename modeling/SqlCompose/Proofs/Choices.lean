/-
Guarded statements on MySQL.

MySQL runs no statement on a condition. A guarded statement counts what is there, chooses the plain
statement or one that does nothing into a variable, and runs what was chosen. MySQL reads it so
(`Chooses`) if the literals in it are read as they were meant: the names that the count asks for,
and the statement. The statement is read as it was meant if the names in it are, so it comes down
to the backslashes in the names (`Target.mySql_guards`).
-/
import SqlCompose.Proofs.Escapes
import SqlCompose.Proofs.TablePlans

namespace SqlCompose.MySql

/-! ## Phrases -/

/-- Fixed texts with a literal after each. -/
def phrases : List (String × String) → List Token
  | [] => []
  | (text, s) :: more => marks text ++ .literal s :: phrases more

/-- A text without quotes, and not empty. -/
def Unquoted (text : String) : Prop :=
  text.toList ≠ [] ∧ ∀ c ∈ text.toList, c ∉ quotationMarks

/-- From a depth on, each parenthesis that opens is closed and no other one. -/
def closed : Nat → List Token → Bool
  | depth, [] => depth == 0
  | depth, .literal _ :: ts => closed depth ts
  | depth, .mark c :: ts =>
    if c = '(' then closed (depth + 1) ts
    else if c = ')' then depth != 0 && closed (depth - 1) ts
    else closed depth ts

/-- Words of a statement: without quotes, and with each of their parentheses closed. -/
structure Words (text : String) : Prop where
  unquoted : Unquoted text
  level : ∀ depth ts, closed depth (marks text ++ ts) = closed depth ts

section Phrases

variable {ts ts' : List Token} {text : String} {x y : String}

theorem Unquoted.literal {c : Char} {cs : List Char}
    (h : (c :: cs).all (· ∉ quotationMarks) = true) :
    Unquoted (String.ofList (c :: cs)) := by
  rw [Unquoted, String.toList_ofList]
  exact ⟨List.cons_ne_nil _ _, fun d hd => by simpa using List.all_eq_true.1 h d hd⟩

theorem Unquoted.head? (h : Unquoted text) (ts : List Token) :
    (write (marks text ++ ts)).head? ≠ some apostrophe := by
  obtain ⟨c, cs, hcs⟩ := List.exists_cons_of_ne_nil h.1
  have hc := h.2 c (by simp [hcs])
  rw [write_append, write_marks, hcs]
  rintro heq
  cases heq
  exact hc (List.mem_cons_self ..)

theorem Unquoted.apart (h : Unquoted text) (hts : Apart ts) : Apart (marks text ++ ts) := by
  have hmarks := h.2
  rw [marks]
  generalize text.toList = cs at hmarks
  induction cs with
  | nil => exact hts
  | cons c cs ih =>
    rw [List.forall_mem_cons] at hmarks
    exact ⟨hmarks.1, ih hmarks.2⟩

theorem marks_append (x y : String) : marks (x ++ y) = marks x ++ marks y := by
  rw [marks, String.toList_append, List.map_append]
  rfl

namespace Words

theorem literal {c : Char} {cs : List Char}
    (h : (c :: cs).all (· ∉ quotationMarks) = true)
    (hlevel : ∀ depth ts, closed depth (marks (String.ofList (c :: cs)) ++ ts) = closed depth ts) :
    Words (String.ofList (c :: cs)) :=
  ⟨.literal h, hlevel⟩

theorem append (hx : Words x) (hy : Words y) : Words (x ++ y) := by
  refine ⟨⟨?_, ?_⟩, fun depth ts => ?_⟩
  · rw [String.toList_append]
    exact List.append_ne_nil_of_left_ne_nil hx.unquoted.1 _
  · rw [String.toList_append, List.forall_mem_append]
    exact ⟨hx.unquoted.2, hy.unquoted.2⟩
  · rw [marks_append, List.append_assoc, hx.level, hy.level]

theorem countRows (hx : Words x) (hy : Words y) : Words (Dialect.countRows x y) :=
  (((Words.literal rfl fun _ _ => rfl).append hx).append (.literal rfl fun _ _ => rfl)).append hy

theorem both (hx : Words x) (hy : Words y) : Words (Dialect.both x y) :=
  (hx.append (.literal rfl fun _ _ => rfl)).append hy

end Words

variable {ps : List (String × String)}

theorem apart_phrases_append (hps : ∀ p ∈ ps, Unquoted p.1) (hts : Apart ts)
    (hhead : (write ts).head? ≠ some apostrophe) : Apart (phrases ps ++ ts) := by
  induction ps with
  | nil => exact hts
  | cons p ps ih =>
    rw [List.forall_mem_cons] at hps
    have hnext : (write (phrases ps ++ ts)).head? ≠ some apostrophe := by
      cases ps with
      | nil => exact hhead
      | cons p' ps =>
        rw [phrases, List.append_assoc]
        exact Unquoted.head? (hps.2 p' (List.mem_cons_self ..)) _
    rw [phrases, List.append_assoc]
    exact hps.1.apart ⟨hnext, ih hps.2⟩

theorem literals_phrases (ps : List (String × String)) :
    literals (phrases ps) = ps.map Prod.snd := by
  induction ps with
  | nil => rfl
  | cons p ps ih =>
    rw [phrases, literals_append, literals_marks, literals, ih]
    rfl

theorem closed_phrases (hps : ∀ p ∈ ps, Words p.1) : closed 0 (phrases ps) = true := by
  induction ps with
  | nil => rfl
  | cons p ps ih =>
    rw [List.forall_mem_cons] at hps
    rw [phrases, hps.1.level, closed, ih hps.2]

end Phrases

/-! ## Choices -/

def runChosen : String :=
  "); PREPARE sqlweave_stmt FROM @sqlweave_ddl; EXECUTE sqlweave_stmt; DEALLOCATE PREPARE sqlweave_stmt"

/-- The choice of a statement by a count. -/
def choice (query : List Token) (present : Bool) (statement : String) : List Token :=
  marks "SET @sqlweave_ddl = IF((" ++ (query ++
    (phrases [(if present then ") > 0, " else ") = 0, ", statement), (", ", "SELECT 1")] ++
      marks runChosen))

/-- MySQL reads the text as a choice of the statement, by a count that it reads as it reads the
probe, and the literals of the count are these. -/
def Chooses (text probe : String) (asked : List String) (present : Bool) (statement : String) :
    Prop :=
  ∃ query, Scans probe.toList query ∧ literals query = asked ∧ closed 0 query = true ∧
    Scans text.toList (choice query present statement)

theorem toList_mySqlGuard {probe : String} {query : List Token} (h : probe.toList = write query)
    (present : Bool) (statement : String) :
    (Ddl.mySqlGuard probe statement present).toList = write (choice query present statement) := by
  have htest : ") " ++ (if present then "> 0" else "= 0") ++ ", " =
      if present then ") > 0, " else ") = 0, " := by
    cases present <;> decide
  have hend : ", 'SELECT 1'); PREPARE sqlweave_stmt FROM @sqlweave_ddl; EXECUTE sqlweave_stmt; " ++
      "DEALLOCATE PREPARE sqlweave_stmt" = ", " ++ (quoteLiteral "SELECT 1" ++ runChosen) := by
    decide
  have hguard : Ddl.mySqlGuard probe statement present =
      "SET @sqlweave_ddl = IF((" ++ (probe ++ ((if present then ") > 0, " else ") = 0, ") ++
        (quoteLiteral statement ++ (", " ++ (quoteLiteral "SELECT 1" ++ runChosen))))) := by
    rw [← htest, ← hend]
    unfold Ddl.mySqlGuard
    simp only [String.append_assoc]
  rw [hguard, choice]
  simp only [String.toList_append, write_append, write_marks, phrases, write, h, List.append_assoc,
    List.append_nil]

section Choosing

variable {probe : String} {ps : List (String × String)}

theorem apart_choice (hps : ∀ p ∈ ps, Unquoted p.1) (present : Bool) (statement : String) :
    Apart (choice (phrases ps) present statement) := by
  have hset : Unquoted "SET @sqlweave_ddl = IF((" := .literal rfl
  have hcomma : Unquoted ", " := .literal rfl
  have hrun : Unquoted runChosen := .literal rfl
  have htest : Unquoted (if present then ") > 0, " else ") = 0, ") := by
    cases present
    · exact .literal rfl
    · exact .literal rfl
  have hend : Apart (marks runChosen ++ []) := hrun.apart trivial
  have hendHead : (write (marks runChosen ++ [])).head? ≠ some apostrophe := hrun.head? []
  rw [List.append_nil] at hend hendHead
  have htail : Apart (phrases [(if present then ") > 0, " else ") = 0, ", statement),
      (", ", "SELECT 1")] ++ marks runChosen) := by
    refine apart_phrases_append ?_ hend hendHead
    rw [List.forall_mem_cons, List.forall_mem_singleton]
    exact ⟨htest, hcomma⟩
  rw [choice]
  refine hset.apart (apart_phrases_append hps htail ?_)
  rw [phrases, List.append_assoc]
  exact htest.head? _

/-- **When a guard chooses.** -/
theorem chooses_iff (hprobe : probe.toList = write (phrases ps)) (hps : ∀ p ∈ ps, Words p.1)
    (present : Bool) (statement : String) :
    Chooses (Ddl.mySqlGuard probe statement present) probe (ps.map Prod.snd) present statement ↔
      ∀ s ∈ statement :: ps.map Prod.snd, KeepsBackslashes s.toList := by
  have hunquoted : ∀ p ∈ ps, Unquoted p.1 := fun p hp => (hps p hp).unquoted
  have hapart := apart_choice hunquoted present statement
  have hliterals (query : List Token) :
      literals (choice query present statement) = literals query ++ [statement, "SELECT 1"] := by
    simp [choice, literals_phrases]
  have hall : (∀ s ∈ literals (choice (phrases ps) present statement), KeepsBackslashes s.toList) ↔
      ∀ s ∈ statement :: ps.map Prod.snd, KeepsBackslashes s.toList := by
    have hnothing : KeepsBackslashes "SELECT 1".toList := by decide
    rw [hliterals, literals_phrases, List.forall_mem_append, List.forall_mem_cons,
      List.forall_mem_singleton, List.forall_mem_cons, and_iff_left hnothing, and_comm]
  rw [← hall]
  constructor
  · rintro ⟨query, -, hasked, -, hscan⟩
    rw [toList_mySqlGuard hprobe] at hscan
    refine keepsBackslashes_of_scans hapart hscan ?_
    rw [hliterals, hliterals, hasked, literals_phrases]
  · intro hkeep
    refine ⟨phrases ps, ?_, literals_phrases ps, closed_phrases hps, ?_⟩
    · have hprobeApart : Apart (phrases ps ++ []) :=
        apart_phrases_append hunquoted trivial nofun
      rw [List.append_nil] at hprobeApart
      rw [hprobe]
      refine scans_write hprobeApart fun s hs => hkeep s ?_
      rw [hliterals]
      exact List.mem_append_left _ hs
    · rw [toList_mySqlGuard hprobe]
      exact scans_write hapart hkeep

end Choosing

/-! ## Probes -/

def memberPhrases (catalog column table name : String) : List (String × String) :=
  [(Dialect.countRows catalog (Dialect.both "table_schema = DATABASE()" "table_name = "), table),
    (" AND " ++ (column ++ " = "), name)]

def keyPhrases (table name : String) : List (String × String) :=
  [(Dialect.countRows "information_schema.table_constraints"
      (Dialect.both "constraint_schema = DATABASE()" "constraint_type = "), "FOREIGN KEY"),
    (" AND table_name = ", table), (" AND constraint_name = ", name)]

theorem words_memberPhrases {catalog column : String} (hcatalog : Words catalog)
    (hcolumn : Words column) (table name : String) :
    ∀ p ∈ memberPhrases catalog column table name, Words p.1 := by
  rw [memberPhrases, List.forall_mem_cons, List.forall_mem_singleton]
  exact ⟨.countRows hcatalog (.both (.literal rfl fun _ _ => rfl) (.literal rfl fun _ _ => rfl)),
    .append (.literal rfl fun _ _ => rfl) (hcolumn.append (.literal rfl fun _ _ => rfl))⟩

theorem words_keyPhrases (table name : String) : ∀ p ∈ keyPhrases table name, Words p.1 := by
  rw [keyPhrases, List.forall_mem_cons, List.forall_mem_cons, List.forall_mem_singleton]
  exact ⟨.countRows (.literal rfl fun _ _ => rfl)
    (.both (.literal rfl fun _ _ => rfl) (.literal rfl fun _ _ => rfl)),
    .literal rfl fun _ _ => rfl, .literal rfl fun _ _ => rfl⟩

theorem toList_memberProbe (catalog column table name : String) :
    (Dialect.countRows catalog (Dialect.both "table_schema = DATABASE()"
      (Dialect.both (Dialect.named "table_name" (quoteLiteral table))
        (Dialect.named column (quoteLiteral name))))).toList =
      write (phrases (memberPhrases catalog column table name)) := by
  have htable : "table_name = " = "table_name" ++ " = " := by decide
  unfold memberPhrases Dialect.countRows Dialect.both Dialect.named
  rw [htable]
  simp only [String.toList_append, phrases, write_append, write_marks, write, List.append_assoc,
    List.append_nil]

theorem toList_keyProbe (table name : String) :
    (Dialect.mySql.foreignKeyProbe table name).toList = write (phrases (keyPhrases table name)) := by
  have hkind : "constraint_type = 'FOREIGN KEY'" =
      "constraint_type = " ++ quoteLiteral "FOREIGN KEY" := by decide
  have htable : " AND table_name = " = " AND " ++ ("table_name" ++ " = ") := by decide
  have hname : " AND constraint_name = " = " AND " ++ ("constraint_name" ++ " = ") := by decide
  unfold Dialect.foreignKeyProbe keyPhrases Dialect.countRows Dialect.both Dialect.named
  rw [hkind, htable, hname]
  simp only [String.toList_append, phrases, write_append, write_marks, write, List.append_assoc,
    List.append_nil]

/-! ## Guarded statements -/

/-- MySQL reads the guarded statement as a choice of the plain one by the probe if these names keep
their backslashes, and only then. -/
def ReadsGuard (guarded probe plain : Except Error String) (asked : List String) (present : Bool)
    (names : List String) : Prop :=
  ∃ text query statement, guarded = .ok text ∧ probe = .ok query ∧ plain = .ok statement ∧
    (Chooses text query asked present statement ↔ ∀ s ∈ names, KeepsBackslashes s.toList)

theorem readsGuard {probe statement : String} {ps : List (String × String)} {names : List String}
    (hprobe : probe.toList = write (phrases ps)) (hps : ∀ p ∈ ps, Words p.1) (present : Bool)
    (hstatement : DependsOn KeepsBackslashes statement names)
    (hasked : ∀ s ∈ ps.map Prod.snd, s ∈ names ∨ KeepsBackslashes s.toList) :
    ReadsGuard (.ok (Ddl.mySqlGuard probe statement present)) (.ok probe) (.ok statement)
      (ps.map Prod.snd) present names := by
  refine ⟨_, _, _, rfl, rfl, rfl, ?_⟩
  rw [chooses_iff hprobe hps, List.forall_mem_cons, hstatement.iff nameWise_keepsBackslashes]
  exact and_iff_left_of_imp fun hnames s hs => (hasked s hs).elim (hnames s) id

section Guards

variable {table name statement : String} {names : List String} {present : Bool}

theorem readsGuard_member {catalog column : String} (hcatalog : Words catalog)
    (hcolumn : Words column) (hstatement : DependsOn KeepsBackslashes statement names)
    (hasked : table ∈ names ∧ name ∈ names) :
    let probe := Dialect.countRows catalog (Dialect.both "table_schema = DATABASE()"
      (Dialect.both (Dialect.named "table_name" (quoteLiteral table))
        (Dialect.named column (quoteLiteral name))))
    ReadsGuard (.ok (Ddl.mySqlGuard probe statement present)) (.ok probe) (.ok statement)
      [table, name] present names := by
  refine readsGuard (toList_memberProbe catalog column table name)
    (words_memberPhrases hcatalog hcolumn table name) present hstatement ?_
  simp [memberPhrases, hasked]

theorem readsGuard_column (hstatement : DependsOn KeepsBackslashes statement names)
    (hasked : table ∈ names ∧ name ∈ names) :
    ReadsGuard (.ok (Ddl.mySqlGuard (Dialect.mySql.columnProbe table name) statement present))
      (.ok (Dialect.mySql.columnProbe table name)) (.ok statement) [table, name] present names := by
  have hcatalog : Words "information_schema.columns" := .literal rfl fun _ _ => rfl
  have hcolumn : Words "column_name" := .literal rfl fun _ _ => rfl
  exact readsGuard_member hcatalog hcolumn hstatement hasked

theorem readsGuard_index (hstatement : DependsOn KeepsBackslashes statement names)
    (hasked : table ∈ names ∧ name ∈ names) :
    ReadsGuard (.ok (Ddl.mySqlGuard (Dialect.mySql.indexProbe table name) statement present))
      (.ok (Dialect.mySql.indexProbe table name)) (.ok statement) [table, name] present names := by
  have hcatalog : Words "information_schema.statistics" := .literal rfl fun _ _ => rfl
  have hcolumn : Words "index_name" := .literal rfl fun _ _ => rfl
  exact readsGuard_member hcatalog hcolumn hstatement hasked

theorem readsGuard_key (hstatement : DependsOn KeepsBackslashes statement names)
    (hasked : table ∈ names ∧ name ∈ names) :
    ReadsGuard (.ok (Ddl.mySqlGuard (Dialect.mySql.foreignKeyProbe table name) statement present))
      (.ok (Dialect.mySql.foreignKeyProbe table name)) (.ok statement)
      ["FOREIGN KEY", table, name] present names := by
  have hkind : KeepsBackslashes "FOREIGN KEY".toList := by decide
  refine readsGuard (toList_keyProbe table name) (words_keyPhrases table name) present
    hstatement ?_
  exact List.forall_mem_cons.2 ⟨.inr hkind, List.forall_mem_cons.2 ⟨.inl hasked.1,
    List.forall_mem_singleton.2 (.inl hasked.2)⟩⟩

end Guards

end SqlCompose.MySql

namespace SqlCompose

namespace TypeUse

theorem plain_standard (u : TypeUse) : Plain u.standard := by
  have hsized {keyword : String} (h : Plain keyword) : Plain (sized keyword u.size) :=
    ((h.append (.literal rfl)).append (.repr _)).append (.literal rfl)
  unfold standard
  split
  case h_7 => -- decimal
    exact ((((Plain.append (.literal rfl) (.literal rfl)).append (.repr _)).append
      (.literal rfl)).append (.repr _)).append (.literal rfl)
  case h_8 => -- string
    split
    · exact hsized (.literal rfl)
    · split <;> exact .literal rfl
  case h_11 => -- binary
    split
    · exact hsized (.literal rfl)
    · exact .literal rfl
  all_goals exact .literal rfl

/-- No keyword for a type has dollars or backslashes. -/
theorem plain_mySqlColumn (u : TypeUse) : Plain u.mySqlColumn := by
  have hstandard := u.plain_standard
  unfold mySqlColumn
  split
  case h_7 | h_9 => -- a size of zero
    split
    · exact .literal rfl
    · exact hstandard
  case h_10 | h_11 => exact hstandard
  all_goals exact .literal rfl

end TypeUse

namespace Target

open MySql

/-- How MySQL reads the guarded statements on columns, indexes and foreign keys. -/
structure ReadsGuards (t : Target) : Prop where
  createColumn : ∀ (table : Table) (f : Field),
    ReadsGuard (t.createColumnIfNotExists table f) (t.dialect.columnExists table.name f.name)
      (.ok (t.createColumn table f)) [table.name, f.name] false [table.name, f.name]
  dropColumn : ∀ table column : String,
    ReadsGuard (t.dropColumnIfExists table column) (t.dialect.columnExists table column)
      (t.dropColumn table column) [table, column] true [table, column]
  createIndex : ∀ (table : Table) (index : Index),
    ReadsGuard (.ok (t.createIndexIfNotExists table index))
      (t.dialect.indexExists table.name (t.indexName table index))
      (.ok (t.createIndex table index)) [table.name, t.indexName table index] false
      (t.indexName table index :: table.name :: index.columns)
  dropIndex : ∀ table index : String,
    ReadsGuard (.ok (t.dropIndexIfExists table index)) (t.dialect.indexExists table index)
      (.ok (t.dropIndex table index)) [table, index] true [index, table]
  createForeignKey : ∀ (table : Table) (f : Field),
    match f.reference with
    | some r => ∃ name, t.foreignKeyName table f = .ok name ∧
      ReadsGuard (t.createForeignKeyIfNotExists table f) (t.dialect.foreignKeyExists table.name name)
        (t.createForeignKey table f) ["FOREIGN KEY", table.name, name] false
        [table.name, name, f.name, r.table, r.column]
    | none => t.createForeignKeyIfNotExists table f = t.createForeignKey table f ∧
      t.createForeignKey table f = .error (.invalidSchema (.noReference table.name f.name))
  dropForeignKey : ∀ table name : String,
    ReadsGuard (t.dropForeignKeyIfExists table name) (t.dialect.foreignKeyExists table name)
      (t.dropForeignKey table name) ["FOREIGN KEY", table, name] true [table, name]

section MySql

variable {t : Target} (ht : t.dialect = .mySql)
include ht

theorem namesBetween_of_mySql : t.dialect.NamesBetween backtick backtick := by
  rw [ht]
  exact .mySql

/-- The definition of a column is its head and words of our own. -/
theorem exists_columnDefinition_eq (table : Table) (f : Field) :
    ∃ words, Plain words ∧ t.columnDefinition table f = t.columnHead f ++ words := by
  have hnull : Plain (nullability f) := by
    unfold nullability
    split <;> exact .literal rfl
  have hkey : Plain (if isSoleKey table f then " PRIMARY KEY" else "") := by
    split <;> exact .literal rfl
  obtain ⟨d, options⟩ := t
  cases ht
  unfold columnDefinition
  cases f.identity with
  | none =>
    refine ⟨_, hnull.append hkey, ?_⟩
    simp [String.append_assoc]
  | some i =>
    have hidentity : Plain (" " ++ "AUTO_INCREMENT") := .append (.literal rfl) (.literal rfl)
    refine ⟨_, (hidentity.append hnull).append hkey, ?_⟩
    rw [← String.append_assoc, ← String.append_assoc]
    rfl

theorem dependsOn_createColumn (table : Table) (f : Field) :
    DependsOn KeepsBackslashes (t.createColumn table f) [table.name, f.name] := by
  have hquotes := namesBetween_of_mySql ht
  have hP := nameWise_keepsBackslashes
  have htype : Plain (t.dialect.typeName ⟨f.ty, f.size, f.precision, false⟩) := by
    rw [ht]
    exact TypeUse.plain_mySqlColumn _
  have hname : DependsOn KeepsBackslashes ("ADD COLUMN " ++ t.quoteIdentifier f.name) [f.name] :=
    dependsOn_action hP hquotes (.literal rfl) f.name
  have hhead := (hname.append (y := " ") (hP.fixed rfl)).append (hP.plain htype)
  obtain ⟨words, hwords, hdefinition⟩ := exists_columnDefinition_eq ht table f
  have hcolumn := hhead.append (hP.plain hwords)
  rw [createColumn, ht, hdefinition, columnHead]
  simp only [← String.append_assoc]
  exact dependsOn_alterTable hP hquotes hcolumn table.name

theorem dependsOn_dropIndex (table index : String) :
    DependsOn KeepsBackslashes (t.dropIndex table index) [index, table] := by
  have hquotes := namesBetween_of_mySql ht
  have hP := nameWise_keepsBackslashes
  have hindex : DependsOn KeepsBackslashes ("DROP INDEX " ++ t.quoteIdentifier index) [index] :=
    dependsOn_action hP hquotes (.literal rfl) index
  rw [dropIndex, ht]
  exact (hindex.append (hP.fixed rfl)).append (dependsOn_quoteIdentifier hP hquotes table)

end MySql

/-- **What MySQL makes of guarded statements.** Each is read as a choice of the plain statement, by a
count of what has the names that were given, if every backslash in these names stands before a
percent sign or an underscore, and only then. -/
theorem mySql_guards (options : Options) :
    ReadsGuards { dialect := .mySql, options := options } where
  createColumn := by
    intro table f
    exact readsGuard_column (dependsOn_createColumn rfl table f) (by simp)
  dropColumn := by
    intro table column
    exact readsGuard_column
      (dependsOn_dropColumnStatement nameWise_keepsBackslashes .mySql table column) (by simp)
  createIndex := by
    intro table index
    exact readsGuard_index
      (dependsOn_indexStatement nameWise_keepsBackslashes .mySql index (.literal rfl)) (by simp)
  dropIndex := by
    intro table index
    exact readsGuard_index (dependsOn_dropIndex rfl table index) (by simp)
  createForeignKey := by
    intro table f
    split
    · next r hr =>
      obtain ⟨name, hname⟩ := exists_foreignKeyName { dialect := .mySql, options := options } table
        (f := f) (by rw [hr]; rfl)
      refine ⟨name, hname, ?_⟩
      rw [createForeignKeyIfNotExists, createForeignKey]
      simp only [hname, addForeignKey_eq hr hname]
      exact readsGuard_key (dependsOn_keyStatement nameWise_keepsBackslashes .mySql) (by simp)
    · next hr =>
      have hname : foreignKeyName { dialect := .mySql, options := options } table f =
          .error (.invalidSchema (.noReference table.name f.name)) := by
        rw [foreignKeyName, reference, hr]
        rfl
      rw [createForeignKeyIfNotExists, createForeignKey]
      simp only [addForeignKey, hname]
      exact ⟨rfl, rfl⟩
  dropForeignKey := by
    intro table name
    exact readsGuard_key
      (dependsOn_dropForeignKeyStatement nameWise_keepsBackslashes .mySql table name) (by simp)

/-- A backslash before a `b` is read as a backspace, so it is not this column that is asked for and
dropped. -/
theorem mySql_guards_backspace :
    let t : Target := { dialect := .mySql }
    readEscaped ['a', '\\', 'b', apostrophe] = some (['a', '\x08'], []) ∧
    ∃ text probe statement,
      t.dropColumnIfExists "T" "a\\b" = .ok text ∧
      t.dialect.columnExists "T" "a\\b" = .ok probe ∧
      t.dropColumn "T" "a\\b" = .ok statement ∧
      ¬ Chooses text probe ["T", "a\\b"] true statement := by
  intro t
  have hstatement :=
    dependsOn_dropColumnStatement nameWise_keepsBackslashes (t := t) .mySql "T" "a\\b"
  have hguard : ReadsGuard (t.dropColumnIfExists "T" "a\\b") (t.dialect.columnExists "T" "a\\b")
      (t.dropColumn "T" "a\\b") ["T", "a\\b"] true ["T", "a\\b"] :=
    readsGuard_column hstatement (by simp)
  obtain ⟨text, probe, statement, htext, hprobe, hplain, hiff⟩ := hguard
  refine ⟨by decide, text, probe, statement, htext, hprobe, hplain, fun h => ?_⟩
  exact absurd (hiff.1 h "a\\b" (List.mem_cons_of_mem _ (List.mem_cons_self ..))) (by decide)

end Target

end SqlCompose
