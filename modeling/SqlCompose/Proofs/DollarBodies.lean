/-
PostgreSQL's guarded foreign keys as PostgreSQL reads them.

The statement stands in the body of a block, and the body between two pairs of dollars. A body ends
at the next pair of dollars, and no quotes inside keep one from ending it (`readDollars`). All that
is written into it between quotes is names. So the body is read whole if no name has two dollars
side by side, and only then (`Ddl.readDollars_guardBody_iff`).

Read whole, the body asks for the constraint that its statement creates, and what stands up to the
semicolon is the statement (`Ddl.readCondition`).
-/
import SqlCompose.Proofs.Statements
import SqlCompose.Proofs.TablePlans

namespace SqlCompose

/-! ## Bodies between dollars -/

/-- What stands before the next two dollars, and what is left after them. -/
def readDollars : List Char → Option (List Char × List Char)
  | [] => none
  | c :: cs =>
    if c = '$' ∧ cs.head? = some '$' then some ([], cs.tail)
    else (readDollars cs).map fun x => (c :: x.1, x.2)

/-- Two dollars stand side by side. -/
def HasDollars (cs : List Char) : Prop := ['$', '$'] <:+: cs

variable {a b : List Char}

theorem not_hasDollars_nil : ¬ HasDollars [] := by simp [HasDollars]

theorem hasDollars_cons {c : Char} :
    HasDollars (c :: b) ↔ (c = '$' ∧ b.head? = some '$') ∨ HasDollars b := by
  rw [HasDollars, List.infix_cons_iff, List.cons_prefix_cons, eq_comm]
  cases b with
  | nil => simp [HasDollars]
  | cons d b => simp [HasDollars, eq_comm]

instance decidableHasDollars : (cs : List Char) → Decidable (HasDollars cs)
  | [] => isFalse not_hasDollars_nil
  | _ :: cs =>
    have := decidableHasDollars cs
    decidable_of_iff _ hasDollars_cons.symm

/-- Where dollars stand beside something else, a pair of them is on one side of it. -/
theorem hasDollars_append_cons {c : Char} (hc : c ≠ '$') :
    HasDollars (a ++ c :: b) ↔ HasDollars a ∨ HasDollars b := by
  induction a with
  | nil => simp [hasDollars_cons, hc, not_hasDollars_nil]
  | cons d a ih =>
    have hhead : (a ++ c :: b).head? = some '$' ↔ a.head? = some '$' := by
      cases a with
      | nil => simpa using hc
      | cons _ _ => rfl
    rw [List.cons_append, hasDollars_cons, hasDollars_cons, ih, hhead, or_assoc]

theorem eq_of_readDollars {cs : List Char} (h : readDollars cs = some (a, b)) :
    cs = a ++ '$' :: '$' :: b := by
  induction cs generalizing a with
  | nil => cases h
  | cons c cs ih =>
    rw [readDollars] at h
    split at h
    · next hdollars =>
      obtain ⟨rfl, hhead⟩ := hdollars
      cases h
      rw [List.nil_append, List.eq_cons_of_mem_head? hhead, List.tail_cons]
    · obtain ⟨x, hread, heq⟩ := Option.map_eq_some_iff.1 h
      cases heq
      rw [ih hread, List.cons_append]

/-- A body has no two dollars side by side. -/
theorem not_hasDollars_of_readDollars {cs : List Char} (h : readDollars cs = some (a, b)) :
    ¬ HasDollars a := by
  induction cs generalizing a with
  | nil => cases h
  | cons c cs ih =>
    rw [readDollars] at h
    split at h
    · cases h
      exact not_hasDollars_nil
    · next hno =>
      obtain ⟨x, hread, heq⟩ := Option.map_eq_some_iff.1 h
      cases heq
      rw [hasDollars_cons, not_or]
      refine ⟨fun hc => hno ⟨hc.1, ?_⟩, ih hread⟩
      rw [eq_of_readDollars hread, List.head?_append, hc.2]
      rfl

/-- A text that does not end with a dollar is read whole if it has no two side by side. -/
theorem readDollars_eq_some_iff {c : Char} (hc : c ≠ '$') :
    readDollars (a ++ c :: '$' :: '$' :: b) = some (a ++ [c], b) ↔ ¬ HasDollars (a ++ [c]) := by
  refine ⟨not_hasDollars_of_readDollars, fun h => ?_⟩
  rw [hasDollars_append_cons hc, not_or] at h
  replace h := h.1
  induction a with
  | nil => simp [readDollars, hc]
  | cons d a ih =>
    rw [hasDollars_cons, not_or] at h
    have hhead : ¬ (d = '$' ∧ (a ++ c :: '$' :: '$' :: b).head? = some '$') := by
      rintro ⟨hd, hhead⟩
      refine h.1 ⟨hd, ?_⟩
      cases a with
      | nil => simp [hc] at hhead
      | cons _ _ => exact hhead
    rw [List.cons_append, readDollars, if_neg hhead, ih h.2]
    rfl

theorem hasDollars_doubling {q : Char} (hq : q ≠ '$') (cs : List Char) :
    HasDollars (doubling q cs) ↔ HasDollars cs := by
  induction cs with
  | nil => rfl
  | cons c cs ih =>
    rw [doubling]
    split
    · next hc => simp [hasDollars_cons, hc, hq, ih]
    · rw [hasDollars_cons, hasDollars_cons, ih, head?_doubling]

/-- Without two dollars side by side. -/
def Undivided (cs : List Char) : Prop := ¬ HasDollars cs

theorem nameWise_undivided : NameWise Undivided where
  nil := not_hasDollars_nil
  cons := by
    intro c cs hc _
    simp [Undivided, hasDollars_cons, hc]
  quoted := by
    intro q hq cs rest
    have hq : q ≠ '$' := by obtain rfl | rfl | rfl := hq <;> decide
    rw [Undivided, hasDollars_append_cons hq, hasDollars_doubling hq, not_or]
    rfl

/-! ## Statements up to a semicolon -/

/-- What stands before the first semicolon that is not between quotes, and what is left after it.
`open?` is the quote to be closed; one that is doubled closes and opens again. -/
def readStatement : Option Char → List Char → Option (List Char × List Char)
  | _, [] => none
  | none, c :: cs =>
    if c = ';' then some ([], cs)
    else
      (readStatement (if c = '"' ∨ c = apostrophe then some c else none) cs).map
        fun x => (c :: x.1, x.2)
  | some q, c :: cs =>
    (readStatement (if c = q then none else some q) cs).map fun x => (c :: x.1, x.2)

/-- Reading goes on after the text, which belongs to the statement. -/
def Unbroken (text : String) : Prop :=
  ∀ rest, readStatement none (text.toList ++ rest) =
    (readStatement none rest).map fun x => (text.toList ++ x.1, x.2)

theorem readStatement_doubling {q : Char} (hq : q = '"' ∨ q = apostrophe) (cs rest : List Char) :
    readStatement (some q) (doubling q cs ++ q :: rest) =
      (readStatement none rest).map fun x => (doubling q cs ++ q :: x.1, x.2) := by
  have hmark : q ≠ ';' := by obtain rfl | rfl := hq <;> decide
  induction cs with
  | nil => simp [readStatement]
  | cons c cs ih =>
    rw [doubling]
    split
    · next hc =>
      rw [List.cons_append, List.cons_append, readStatement, if_pos rfl, readStatement,
        if_neg hmark, if_pos hq, ih]
      simp [Option.map_map, Function.comp_def]
    · next hc =>
      rw [List.cons_append, readStatement, if_neg hc, ih]
      simp [Option.map_map, Function.comp_def]

namespace Unbroken

variable {x y : String}

theorem append (hx : Unbroken x) (hy : Unbroken y) : Unbroken (x ++ y) := by
  intro rest
  rw [String.toList_append, List.append_assoc, hx, hy, Option.map_map]
  simp [Function.comp_def]

theorem fixed {cs : List Char}
    (h : cs.all (fun c => c ≠ ';' ∧ c ≠ '"' ∧ c ≠ apostrophe) = true) :
    Unbroken (String.ofList cs) := by
  intro rest
  rw [String.toList_ofList]
  induction cs with
  | nil => simp
  | cons c cs ih =>
    rw [List.all_cons, Bool.and_eq_true, decide_eq_true_eq] at h
    obtain ⟨⟨hsemi, hdouble, hsingle⟩, h⟩ := h
    have hquote : ¬ (c = '"' ∨ c = apostrophe) := not_or.2 ⟨hdouble, hsingle⟩
    rw [List.cons_append, readStatement, if_neg hsemi, if_neg hquote, ih h, Option.map_map]
    rfl

theorem enclose {q : Char} (hq : q = '"' ∨ q = apostrophe) (s : String) :
    Unbroken (SqlCompose.enclose q q s) := by
  have hmark : q ≠ ';' := by obtain rfl | rfl := hq <;> decide
  intro rest
  rw [toList_enclose, List.cons_append, readStatement, if_neg hmark, if_pos hq, List.append_assoc,
    List.singleton_append, readStatement_doubling hq, Option.map_map]
  simp [Function.comp_def]

theorem readStatement_eq (h : Unbroken x) (rest : List Char) :
    readStatement none (x.toList ++ ';' :: rest) = some (x.toList, rest) := by
  rw [h]
  simp [readStatement]

end Unbroken

/-! ## Guarded foreign keys -/

namespace Ddl

/-- What a body says before the constraint it asks for, -/
def askHead : String := " BEGIN IF NOT EXISTS (SELECT 1 FROM pg_constraint WHERE conname = "

/-- between the constraint and the statement, -/
def askThen : String := ") THEN "

/-- and after the semicolon of the statement. -/
def askEnd : String := " END IF; END "

/-- The body of a block that runs a statement unless a constraint is there. -/
def guardBody (constraint statement : String) : String :=
  askHead ++ (quoteLiteral constraint ++ (askThen ++ (statement ++ (";" ++ askEnd))))

/-- The constraint that a body asks for, and the statement that it runs if there is none. -/
def readCondition (body : List Char) : Option (String × String) := do
  let cs ← strip? askHead.toList body
  let (constraint, cs) ← readLiteral cs
  let cs ← strip? askThen.toList cs
  let (statement, cs) ← readStatement none cs
  if cs = askEnd.toList then some (constraint, .ofList statement) else none

/-- The name of the constraint that a statement adds to a table. -/
def createdConstraint? (statement : List Char) : Option String := do
  let cs ← strip? "ALTER TABLE ".toList statement
  let (_, cs) ← lexeme? '"' '"' cs
  let cs ← strip? " ADD CONSTRAINT ".toList cs
  match ← lexeme? '"' '"' cs with
  | (.name s, _) => some s
  | (.mark _, _) => none

theorem postgresGuard_eq (constraint statement : String) :
    Target.postgresGuard constraint statement =
      "DO $$" ++ guardBody constraint statement ++ "$$" := by
  have hhead : "DO $$ BEGIN IF NOT EXISTS (SELECT 1 FROM pg_constraint WHERE conname = " =
      "DO $$" ++ askHead := by decide
  have htail : "; END IF; END $$" = ";" ++ askEnd ++ "$$" := by decide
  unfold Target.postgresGuard guardBody askThen
  rw [hhead, htail]
  simp only [String.append_assoc]

theorem readCondition_guardBody (constraint : String) {statement : String}
    (h : Unbroken statement) :
    readCondition (guardBody constraint statement).toList = some (constraint, statement) := by
  have hstop (rest : List Char) : (askThen.toList ++ rest).head? ≠ some apostrophe := by
    have hhead : askThen.toList.head? = some ')' := rfl
    rw [List.head?_append, hhead, Option.some_or]
    decide
  have hsemicolon : ";".toList = [';'] := rfl
  rw [readCondition, guardBody]
  simp only [String.toList_append, hsemicolon, List.singleton_append, strip?_append,
    readLiteral_quoteLiteral (hstop _), h.readStatement_eq, Option.bind_eq_bind, Option.bind_some,
    if_true, String.ofList_toList]

theorem dependsOn_guardBody (constraint : String) {statement : String} {names : List String}
    (h : DependsOn Undivided statement names) :
    DependsOn Undivided (guardBody constraint statement) (constraint :: names) := by
  have hP := nameWise_undivided
  have hend : DependsOn Undivided (";" ++ askEnd) [] := .append (hP.fixed rfl) (hP.fixed rfl)
  have hthen := DependsOn.append (x := askThen) (hP.fixed rfl) (h.append hend)
  have hname := (hP.enclose (.inr (.inl rfl)) constraint).append hthen
  rw [← List.append_nil names]
  exact DependsOn.append (x := askHead) (hP.fixed rfl) hname

theorem exists_guardBody_eq (constraint statement : String) :
    ∃ cs, (guardBody constraint statement).toList = cs ++ [' '] := by
  have hend : askEnd.toList = " END IF; END".toList ++ [' '] := rfl
  rw [guardBody]
  simp only [String.toList_append, hend, ← List.append_assoc]
  exact ⟨_, rfl⟩

/-- The body is read whole, up to the dollars behind it, unless a name cuts it off. -/
theorem readDollars_guardBody_iff (constraint : String) {statement : String}
    {names : List String} (h : DependsOn Undivided statement names) :
    readDollars (guardBody constraint statement ++ "$$").toList =
        some ((guardBody constraint statement).toList, []) ↔
      ∀ s ∈ constraint :: names, ¬ HasDollars s.toList := by
  obtain ⟨cs, hcs⟩ := exists_guardBody_eq constraint statement
  have htext : (guardBody constraint statement ++ "$$").toList = cs ++ [' ', '$', '$'] := by
    rw [String.toList_append, hcs, List.append_assoc]
    rfl
  rw [htext, hcs, readDollars_eq_some_iff (by decide), ← hcs]
  exact (dependsOn_guardBody constraint h).iff nameWise_undivided

end Ddl

namespace Target

open Ddl

variable {t : Target} {table : Table} {f : Field} {r : Reference} {name : String}

section Postgres

variable (hd : t.dialect = .postgres)
include hd

theorem quoteIdentifier_of_postgres (s : String) : t.quoteIdentifier s = enclose '"' '"' s :=
  quoteIdentifier_eq (by rw [hd]; exact .postgres) s

theorem unbroken_quoteIdentifier (s : String) : Unbroken (t.quoteIdentifier s) := by
  rw [quoteIdentifier_of_postgres hd]
  exact .enclose (.inl rfl) s

theorem unbroken_keyStatement : Unbroken (t.keyStatement table f r name) := by
  have hquoted := unbroken_quoteIdentifier hd
  exact .append (.fixed rfl) (.append (hquoted _) (.append (.fixed rfl) (.append (hquoted _)
    (.append (.fixed rfl) (.append (hquoted _) (.append (.fixed rfl) (.append (hquoted _)
      (.append (.fixed rfl) (.append (hquoted _) (.fixed rfl))))))))))

theorem createdConstraint?_keyStatement :
    createdConstraint? (t.keyStatement table f r name).toList = some name := by
  have hnames : t.dialect.NamesBetween '"' '"' := by
    rw [hd]
    exact .postgres
  have hread (s c : String) (rest : List Char) (hc : c.toList.head? = some ' ') :
      lexeme? '"' '"' ((t.quoteIdentifier s).toList ++ (c.toList ++ rest)) =
        some (.name s, c.toList ++ rest) := by
    refine lexeme?_quoteIdentifier hnames s ?_
    rw [List.head?_append, hc, Option.some_or]
    decide
  unfold createdConstraint? keyStatement
  simp only [String.toList_append, strip?_append, hread _ " ADD CONSTRAINT " _ rfl,
    hread _ " FOREIGN KEY (" _ rfl, Option.bind_eq_bind, Option.bind_some]

theorem createForeignKeyIfNotExists_of_postgres (hr : f.reference = some r)
    (hname : t.foreignKeyName table f = .ok name) :
    t.createForeignKeyIfNotExists table f =
      .ok ("DO $$" ++ guardBody name (t.keyStatement table f r name) ++ "$$") := by
  rw [createForeignKeyIfNotExists, hd, ← postgresGuard_eq]
  simp only [hname, addForeignKey_eq hr hname]
  rfl

end Postgres

/-- **What PostgreSQL makes of a guarded foreign key.** The body of the block asks for the constraint
that its statement creates, and the statement is the plain one. But the body is read whole only if
no name in it has two dollars side by side. -/
theorem postgres_guarded_key (hd : t.dialect = .postgres) (table : Table) {f : Field}
    {r : Reference} (hr : f.reference = some r) :
    ∃ name statement body,
      t.foreignKeyName table f = .ok name ∧
      t.createForeignKey table f = .ok statement ∧
      createdConstraint? statement.toList = some name ∧
      t.createForeignKeyIfNotExists table f = .ok ("DO $$" ++ body ++ "$$") ∧
      readCondition body.toList = some (name, statement) ∧
      (readDollars (body ++ "$$").toList = some (body.toList, []) ↔
        ∀ s ∈ [name, table.name, f.name, r.table, r.column], ¬ HasDollars s.toList) := by
  obtain ⟨name, hname⟩ := t.exists_foreignKeyName table (f := f) (by rw [hr]; rfl)
  have hunbroken : Unbroken (t.keyStatement table f r name) := unbroken_keyStatement hd
  have hplain : t.createForeignKey table f = .ok (t.keyStatement table f r name) := by
    rw [createForeignKey, hd, ← addForeignKey_eq hr hname]
  refine ⟨name, _, guardBody name (t.keyStatement table f r name), hname, hplain,
    createdConstraint?_keyStatement hd, createForeignKeyIfNotExists_of_postgres hd hr hname,
    readCondition_guardBody name hunbroken, ?_⟩
  have hquotes : t.dialect.NamesBetween '"' '"' := by
    rw [hd]
    exact .postgres
  rw [readDollars_guardBody_iff name (dependsOn_keyStatement nameWise_undivided hquotes)]
  -- The constraint's name is in the body twice.
  simp only [List.forall_mem_cons]
  tauto

/-- Names with quotes, and with single dollars at their ends. -/
theorem postgres_guarded_key_single_dollars :
    let f : Field := Field.referencing "$R$" "Id" { name := "O'a$", ty := .integer }
    let table : Table := ⟨"T", "T\"", [f]⟩
    let t : Target := { dialect := .postgres, options := { maxConstraintName := 0 } }
    t.dialect = .postgres ∧ f.reference = some ⟨"$R$", "Id", none⟩ ∧
    ∃ statement body,
      t.createForeignKey table f = .ok statement ∧
      t.createForeignKeyIfNotExists table f = .ok ("DO $$" ++ body ++ "$$") ∧
      readCondition body.toList = some ("FK_T\"_O'a$_$R$_Id", statement) ∧
      createdConstraint? statement.toList = some "FK_T\"_O'a$_$R$_Id" ∧
      readDollars (body ++ "$$").toList = some (body.toList, []) := by
  intro f table t
  obtain ⟨name, statement, body, hname, hplain, hcreated, hguarded, hread, hwhole⟩ :=
    postgres_guarded_key (t := t) rfl table (f := f) rfl
  have hmade : t.foreignKeyName table f = .ok "FK_T\"_O'a$_$R$_Id" := rfl
  obtain rfl : "FK_T\"_O'a$_$R$_Id" = name := Except.ok.inj (hmade.symm.trans hname)
  exact ⟨rfl, rfl, statement, body, hplain, hguarded, hread, hcreated, hwhole.2 (by decide)⟩

/-- A column with two dollars ends the body before its end, in the middle of the constraint's
name. -/
theorem postgres_guarded_key_cut_off :
    let f : Field := Field.referencing "R" "Id" { name := "a$$b", ty := .integer }
    let table : Table := ⟨"T", "T", [f]⟩
    let t : Target := { dialect := .postgres, options := { maxConstraintName := 0 } }
    t.foreignKeyName table f = .ok "FK_T_a$$b_R_Id" ∧
    ∃ body,
      t.createForeignKeyIfNotExists table f = .ok ("DO $$" ++ body ++ "$$") ∧
      readDollars (body ++ "$$").toList ≠ some (body.toList, []) := by
  intro f table t
  have hname : t.foreignKeyName table f = .ok "FK_T_a$$b_R_Id" := rfl
  have href : f.reference = some ⟨"R", "Id", none⟩ := rfl
  have hguarded := createForeignKeyIfNotExists_of_postgres rfl href hname
  refine ⟨hname, _, hguarded, fun hwhole => ?_⟩
  rw [readDollars_guardBody_iff _ (dependsOn_keyStatement nameWise_undivided .postgres)] at hwhole
  exact hwhole "FK_T_a$$b_R_Id" (List.mem_cons_self ..) (by decide)

end Target

end SqlCompose
