/-
What the statement of a table declares.

A column is its name and type with a list of clauses, and the body of a table is a list of lines:
its columns, and possibly the clause of a key. The body of a table is the text of its lines
(`Target.tableBody_eq`). They are one column for each field, in their order, and the key is
declared once (`Target.declares_bodyLines`): in the column that is the whole key, or after all the
columns by a line that names those of the key.
-/
import SqlCompose.Ddl.Table

namespace SqlCompose

/-! ## Lines -/

/-- What can follow the name and the type of a column. -/
inductive ColumnClause where
  | numbering (i : Identity)
  | nullability (nullable : Bool)
  | primaryKey
  | autoIncrement
  | references (table column : String)
  deriving DecidableEq, Repr

/-- A line in the body of a table. -/
inductive BodyLine where
  | column (f : Field) (clauses : List ColumnClause)
  | key (columns : List String)
  deriving DecidableEq, Repr

namespace BodyLine

/-- How often a line declares a key. -/
def keyCount : BodyLine → Nat
  | column _ clauses => clauses.count .primaryKey
  | key _ => 1

def totalKeyCount : List BodyLine → Nat
  | [] => 0
  | line :: rest => line.keyCount + totalKeyCount rest

theorem totalKeyCount_append (a b : List BodyLine) :
    totalKeyCount (a ++ b) = totalKeyCount a + totalKeyCount b := by
  induction a with
  | nil => simp [totalKeyCount]
  | cons line a ih => simp [totalKeyCount, ih, Nat.add_assoc]

end BodyLine

theorem Dialect.typeName_ne_empty (d : Dialect) (u : TypeUse) : d.typeName u ≠ "" := by
  obtain ⟨ty, size, precision, casting⟩ := u
  by_cases hsize : size = 0 <;> cases casting <;> cases d <;> cases ty <;>
    simp [typeName, TypeUse.standard, TypeUse.mySqlCast, TypeUse.mySqlColumn, TypeUse.postgres,
      TypeUse.sqlServer, TypeUse.oracle, TypeUse.sqlite, TypeUse.sized, TypeUse.exact, hsize]

namespace Target

variable (t : Target)

/-- Oracle has no clause for numbering rows, and SQLite writes it as one on the key. -/
def clauseText : ColumnClause → String
  | .numbering i =>
    match t.dialect with
    | .oracle => ""
    | .mySql => " AUTO_INCREMENT"
    | .sqlServer => " IDENTITY(" ++ int64Text i.start ++ "," ++ int64Text i.increment ++ ")"
    | .generic | .postgres | .sqlite =>
      " GENERATED BY DEFAULT AS IDENTITY (START WITH " ++ int64Text i.start ++ " INCREMENT BY " ++
        int64Text i.increment ++ ")"
  | .nullability nullable => if nullable then " NULL" else " NOT NULL"
  | .primaryKey => " PRIMARY KEY"
  | .autoIncrement => " AUTOINCREMENT"
  | .references table column =>
    " REFERENCES " ++ t.quoteIdentifier table ++ " (" ++ t.quoteIdentifier column ++ ")"

def clausesText : List ColumnClause → String
  | [] => ""
  | clause :: rest => t.clauseText clause ++ clausesText rest

def columnType (f : Field) : String :=
  t.dialect.typeName { ty := f.ty, size := f.size, precision := f.precision, casting := false }

def lineText : BodyLine → String
  | .column f clauses => t.quoteIdentifier f.name ++ " " ++ t.columnType f ++ t.clausesText clauses
  | .key columns => "PRIMARY KEY (" ++ commaList (columns.map t.quoteIdentifier) ++ ")"

/-- MySQL says after the columns where its numbers start, unless that is at one. -/
def startText (table : Table) : String :=
  if t.dialect = .mySql then
    (table.identityField?.bind (·.identity)).elim "" fun i =>
      if i.start = 1 then "" else " AUTO_INCREMENT=" ++ int64Text i.start
  else ""

def bodyText (table : Table) (lines : List BodyLine) : String :=
  t.quoteIdentifier table.name ++ " (\n    " ++ joinWith ",\n    " (lines.map t.lineText) ++
    "\n)" ++ t.startText table

/-- The statement that creates a table, and only where there is none if `guarded`. -/
def creationText (table : Table) (guarded : Bool) (body : String) : String :=
  match t.dialect, guarded with
  | _, false => "CREATE TABLE " ++ body
  | .sqlServer, true =>
    "IF OBJECT_ID(" ++ ("N" ++ quoteLiteral table.name) ++ ", N'U') IS NULL\n" ++
      ("CREATE TABLE " ++ body)
  | .oracle, true => Ddl.oracleGuard .createTable ("CREATE TABLE " ++ body)
  | _, true => "CREATE TABLE IF NOT EXISTS " ++ body

theorem tableOptions_eq (table : Table) : t.tableOptions table = t.startText table := by
  unfold tableOptions startText
  obtain ⟨d, options⟩ := t
  cases d with
  | mySql => cases table.identityField?.bind (·.identity) <;> rfl
  | _ => rfl

/-! ## Columns -/

/-- The clauses of a field's column, in their order. -/
def columnClauses (table : Table) (f : Field) : List ColumnClause :=
  if t.dialect = .sqlite then
    .nullability f.nullable ::
      (if isSoleKey table f then
        .primaryKey :: (if f.isIdentity then [.autoIncrement] else [])
      else []) ++
      f.reference.elim [] fun r => [.references r.table r.column]
  else
    f.identity.elim [] (fun i => [.numbering i]) ++
      .nullability f.nullable :: (if isSoleKey table f then [.primaryKey] else [])

def columnLine (table : Table) (f : Field) : BodyLine := .column f (t.columnClauses table f)

theorem clauseText_numbering (i : Identity) :
    t.clauseText (.numbering i) = (t.dialect.identityClause? i).elim "" (" " ++ ·) := by
  have hserver : " IDENTITY(" = " " ++ "IDENTITY(" := by decide
  have hstandard : " GENERATED BY DEFAULT AS IDENTITY (START WITH " =
    " " ++ "GENERATED BY DEFAULT AS IDENTITY (START WITH " := by decide
  obtain ⟨d, options⟩ := t
  cases d <;>
    simp only [clauseText.eq_def, Dialect.identityClause?, Option.elim, hserver, hstandard,
      String.append_assoc]
  rfl

theorem clausesText_append (a b : List ColumnClause) :
    t.clausesText (a ++ b) = t.clausesText a ++ t.clausesText b := by
  induction a with
  | nil => simp [clausesText]
  | cons clause a ih => simp [clausesText, ih, String.append_assoc]

/-- SQLite writes a column in a way of its own. -/
theorem columnDefinition_of_ne (hd : t.dialect ≠ .sqlite) (table : Table) (f : Field) :
    t.columnDefinition table f =
      t.columnHead f ++
        (match f.identity.bind t.dialect.identityClause? with
          | some clause => " " ++ clause
          | none => "") ++
        nullability f ++ (if isSoleKey table f then " PRIMARY KEY" else "") := by
  unfold columnDefinition
  split
  · next h => exact absurd h hd
  · rfl

theorem lineText_columnLine (table : Table) (f : Field) :
    t.lineText (t.columnLine table f) = t.columnDefinition table f := by
  change t.columnHead f ++ t.clausesText (t.columnClauses table f) = _
  rw [columnClauses]
  by_cases hd : t.dialect = .sqlite
  · have hkey : t.clausesText (if isSoleKey table f then
        .primaryKey :: (if f.isIdentity then [.autoIncrement] else []) else []) =
        (if isSoleKey table f then
          " PRIMARY KEY" ++ (if f.isIdentity then " AUTOINCREMENT" else "") else "") := by
      split
      · split <;> simp [clausesText, clauseText.eq_def]
      · rfl
    rw [if_pos hd, List.cons_append, clausesText, clausesText_append, hkey, columnDefinition, hd]
    cases f.reference <;> simp [clausesText, clauseText.eq_def, nullability, String.append_assoc]
  · have hkey : t.clausesText (if isSoleKey table f then [.primaryKey] else []) =
        (if isSoleKey table f then " PRIMARY KEY" else "") := by
      split <;> simp [clausesText, clauseText.eq_def]
    have hnumber : t.clausesText (f.identity.elim [] fun i => [.numbering i]) =
        ((f.identity.bind t.dialect.identityClause?).elim "" (" " ++ ·)) := by
      cases f.identity with
      | none => rfl
      | some i => simp [clausesText, clauseText_numbering]
    rw [if_neg hd, clausesText_append, hnumber, clausesText, hkey, columnDefinition_of_ne t hd]
    cases f.identity.bind t.dialect.identityClause? <;>
      simp [clauseText.eq_def, nullability, String.append_assoc]

/-! ## The key -/

theorem keyCount_columnLine (table : Table) (f : Field) :
    (t.columnLine table f).keyCount = if isSoleKey table f then 1 else 0 := by
  rw [columnLine, BodyLine.keyCount, columnClauses]
  split
  · have href : (f.reference.elim [] fun r => [ColumnClause.references r.table r.column]).count
        .primaryKey = 0 := by
      cases f.reference <;> simp
    rw [List.count_append, href]
    cases isSoleKey table f <;> cases f.isIdentity <;> simp
  · have hid : (f.identity.elim [] fun i => [ColumnClause.numbering i]).count .primaryKey = 0 := by
      cases f.identity <;> simp
    rw [List.count_append, hid]
    cases isSoleKey table f <;> simp

theorem isSoleKey_iff {table : Table} {f : Field} (hf : f ∈ table.fields) :
    isSoleKey table f = true ↔ table.primaryKeys = [f] := by
  rw [isSoleKey, Bool.and_eq_true, Table.hasSoleKey, beq_iff_eq]
  constructor
  · rintro ⟨hkey, hone⟩
    obtain ⟨g, hg⟩ := List.length_eq_one_iff.1 hone
    have hmem : f ∈ table.primaryKeys := List.mem_filter.2 ⟨hf, hkey⟩
    rw [hg, List.mem_singleton] at hmem
    rw [hg, hmem]
  · intro h
    have hmem : f ∈ table.primaryKeys := by
      rw [h]
      exact List.mem_singleton_self f
    exact ⟨(List.mem_filter.1 hmem).2, by rw [h, List.length_singleton]⟩

/-- The columns declare a key as often as there are key fields, if there is one, or not at all. -/
theorem totalKeyCount_columns (table : Table) :
    BodyLine.totalKeyCount (table.fields.map (t.columnLine table)) =
      if table.primaryKeys.length = 1 then 1 else 0 := by
  -- By induction over some of the fields, while the key stays that of the whole table.
  have hcount : ∀ fields : List Field,
      BodyLine.totalKeyCount (fields.map (t.columnLine table)) =
        if table.hasSoleKey then (fields.filter (·.primaryKey)).length else 0 := by
    intro fields
    induction fields with
    | nil => simp [BodyLine.totalKeyCount]
    | cons f fields ih =>
      rw [List.map_cons, BodyLine.totalKeyCount, ih, keyCount_columnLine, isSoleKey]
      cases table.hasSoleKey <;> cases hf : f.primaryKey <;> simp [hf, Nat.add_comm]
  rw [hcount, ← Table.primaryKeys]
  by_cases hone : table.primaryKeys.length = 1 <;> simp [Table.hasSoleKey, hone]

end Target

def Table.keyLines (table : Table) : List BodyLine :=
  if 1 < table.primaryKeys.length then [.key (table.primaryKeys.map (·.name))] else []

namespace Target

variable (t : Target)

def bodyLines (table : Table) : List BodyLine :=
  table.fields.map (t.columnLine table) ++ table.keyLines

theorem map_lineText_bodyLines (table : Table) :
    (t.bodyLines table).map t.lineText =
      table.fields.map (t.columnDefinition table) ++ table.keyLines.map t.lineText := by
  rw [bodyLines, List.map_append, List.map_map]
  congr 2
  funext f
  exact t.lineText_columnLine table f

theorem totalKeyCount_bodyLines (table : Table) :
    BodyLine.totalKeyCount (t.bodyLines table) = if table.primaryKeys = [] then 0 else 1 := by
  rw [bodyLines, BodyLine.totalKeyCount_append, totalKeyCount_columns, Table.keyLines]
  match table.primaryKeys with
  | [] => simp [BodyLine.totalKeyCount]
  | [_] => simp [BodyLine.totalKeyCount]
  | _ :: _ :: _ => simp [BodyLine.totalKeyCount, BodyLine.keyCount]

/-- What lines have to say of a table. -/
structure Declares (table : Table) (lines : List BodyLine) : Prop where
  /-- A column for each field, in their order, and then the key if it has several columns. -/
  lines_eq : lines = table.fields.map (t.columnLine table) ++ table.keyLines
  typed : ∀ f ∈ table.fields, t.columnType f ≠ ""
  column : ∀ f ∈ table.fields, t.lineText (t.columnLine table f) = t.columnDefinition table f
  /-- A column declares the key if it is the whole key, and only then. -/
  inline : ∀ f ∈ table.fields,
    (t.columnLine table f).keyCount = if table.primaryKeys = [f] then 1 else 0
  once : BodyLine.totalKeyCount lines = if table.primaryKeys = [] then 0 else 1

theorem declares_bodyLines (table : Table) : t.Declares table (t.bodyLines table) where
  lines_eq := rfl
  typed f _ := t.dialect.typeName_ne_empty _
  column f _ := t.lineText_columnLine table f
  inline f hf := by
    simp only [keyCount_columnLine, isSoleKey_iff hf]
  once := t.totalKeyCount_bodyLines table

theorem tableBody_eq (table : Table) :
    t.tableBody table = t.bodyText table (t.bodyLines table) := by
  have hlines : t.tableLines table = (t.bodyLines table).map t.lineText := by
    rw [map_lineText_bodyLines, tableLines, compositeKey, Table.keyLines]
    split
    · simp [lineText.eq_def, Function.comp_def]
    · rfl
  rw [tableBody, bodyText, hlines, tableOptions_eq]

/-- The statement of a table, unless SQLite has no way to number its rows. -/
theorem createTableStatement_eq (table : Table) (guarded : Bool) :
    t.createTableStatement table guarded =
      if t.dialect = .sqlite ∧ identityFits table = false then
        .error (.unsupportedFeature .sqlite .identityBesideKey)
      else .ok (t.creationText table guarded (t.bodyText table (t.bodyLines table))) := by
  rw [← tableBody_eq]
  obtain ⟨d, options⟩ := t
  cases d <;> cases guarded <;> cases hfits : identityFits table <;>
    simp [createTableStatement, creationText.eq_def, Ddl.wideLiteral, hfits, Dialect.lacks,
      String.append_assoc]

end Target

end SqlCompose
