/-
The names in a statement.

A statement is fixed texts with quoted names between them. There are properties of texts that
neither the fixed texts nor the quotes give or take (`NameWise`): that no two dollars stand side by
side, or that no backslash changes what follows it. A statement has such a property if its names
have it (`DependsOn`), whatever the statement goes on with.
-/
import SqlCompose.Ddl.ForeignKey
import SqlCompose.Ddl.Index
import SqlCompose.Proofs.Quoting

namespace SqlCompose

/-- The text has the property if its names have it, also where it goes on. -/
def DependsOn (P : List Char → Prop) (text : String) (names : List String) : Prop :=
  ∀ rest, P (text.toList ++ rest) ↔ (∀ s ∈ names, P s.toList) ∧ P rest

/-- A text of our own: without dollars and backslashes. -/
def Plain (text : String) : Prop := ∀ c ∈ text.toList, c ≠ '$' ∧ c ≠ '\\'

/-- A property that plain characters and quotes neither give nor take. -/
structure NameWise (P : List Char → Prop) : Prop where
  nil : P []
  cons : ∀ {c : Char} {cs : List Char}, c ≠ '$' → c ≠ '\\' → (P (c :: cs) ↔ P cs)
  quoted : ∀ {q : Char}, q = '"' ∨ q = apostrophe ∨ q = backtick →
    ∀ cs rest, P (doubling q cs ++ q :: rest) ↔ P cs ∧ P rest

namespace Plain

variable {x y : String}

theorem literal {cs : List Char} (h : cs.all (fun c => c ≠ '$' ∧ c ≠ '\\') = true) :
    Plain (String.ofList cs) := by
  intro c hc
  rw [String.toList_ofList] at hc
  simpa using List.all_eq_true.1 h c hc

theorem append (hx : Plain x) (hy : Plain y) : Plain (x ++ y) := by
  intro c hc
  rw [String.toList_append, List.mem_append] at hc
  exact hc.elim (hx c) (hy c)

theorem repr (n : Nat) : Plain n.repr := by
  intro c hc
  have hdigit := isDigit_of_mem_repr hc
  refine ⟨?_, ?_⟩ <;> rintro rfl <;> exact absurd hdigit (by decide)

end Plain

namespace DependsOn

variable {P : List Char → Prop} {x y : String} {names more : List String}

theorem append (hx : DependsOn P x names) (hy : DependsOn P y more) :
    DependsOn P (x ++ y) (names ++ more) := by
  intro rest
  rw [String.toList_append, List.append_assoc, hx, hy, List.forall_mem_append, and_assoc]

theorem iff (h : DependsOn P x names) (hP : NameWise P) :
    P x.toList ↔ ∀ s ∈ names, P s.toList := by
  have hx := h []
  rwa [List.append_nil, and_iff_left hP.nil] at hx

end DependsOn

namespace NameWise

variable {P : List Char → Prop} (hP : NameWise P)
include hP

theorem plain {text : String} (h : Plain text) : DependsOn P text [] := by
  intro rest
  unfold Plain at h
  generalize text.toList = cs at h
  induction cs with
  | nil => simp
  | cons c cs ih =>
    rw [List.forall_mem_cons] at h
    rw [List.cons_append, hP.cons h.1.1 h.1.2, ih h.2]

theorem fixed {cs : List Char} (h : cs.all (fun c => c ≠ '$' ∧ c ≠ '\\') = true) :
    DependsOn P (String.ofList cs) [] :=
  hP.plain (.literal h)

theorem enclose {q : Char} (hq : q = '"' ∨ q = apostrophe ∨ q = backtick) (s : String) :
    DependsOn P (SqlCompose.enclose q q s) [s] := by
  have hplain : q ≠ '$' ∧ q ≠ '\\' := by obtain rfl | rfl | rfl := hq <;> decide
  intro rest
  rw [toList_enclose, List.cons_append, List.append_assoc, List.singleton_append,
    hP.cons hplain.1 hplain.2, hP.quoted hq]
  simp

end NameWise

namespace Target

open Ddl

variable {t : Target} {table : Table} {f : Field} {r : Reference} {name : String}

/-- The statement that adds a foreign key under a name. -/
def keyStatement (t : Target) (table : Table) (f : Field) (r : Reference) (name : String) :
    String :=
  "ALTER TABLE " ++ (t.quoteIdentifier table.name ++ (" ADD CONSTRAINT " ++
    (t.quoteIdentifier name ++ (" FOREIGN KEY (" ++ (t.quoteIdentifier f.name ++
      (") REFERENCES " ++ (t.quoteIdentifier r.table ++ (" (" ++
        (t.quoteIdentifier r.column ++ ")")))))))))

theorem addForeignKey_eq (hr : f.reference = some r) (hname : t.foreignKeyName table f = .ok name) :
    t.addForeignKey table f = .ok (t.keyStatement table f r name) := by
  have htext : t.alterTable table.name ("ADD CONSTRAINT " ++ t.quoteIdentifier name ++
      " FOREIGN KEY (" ++ t.quoteIdentifier f.name ++ ") REFERENCES " ++
      t.quoteIdentifier r.table ++ " (" ++ t.quoteIdentifier r.column ++ ")") =
        t.keyStatement table f r name := by
    have hadd : " ADD CONSTRAINT " = " " ++ "ADD CONSTRAINT " := by decide
    unfold alterTable keyStatement
    rw [hadd]
    simp only [String.append_assoc]
  rw [← htext, addForeignKey, hname, reference, hr]
  rfl

section Names

variable {P : List Char → Prop} (hP : NameWise P) {q : Char} (hq : t.dialect.NamesBetween q q)
include hP hq

theorem dependsOn_quoteIdentifier (s : String) : DependsOn P (t.quoteIdentifier s) [s] := by
  have hquote : q = '"' ∨ q = apostrophe ∨ q = backtick := by
    generalize t.dialect = d at hq
    cases hq
    · exact .inr (.inr rfl)
    · exact .inl rfl
    · exact .inl rfl
    · exact .inl rfl
  rw [quoteIdentifier_eq hq]
  exact hP.enclose hquote s

theorem dependsOn_alterTable {action : String} {names : List String} (h : DependsOn P action names)
    (s : String) : DependsOn P (t.alterTable s action) (s :: names) := by
  have hstart := (hP.fixed rfl).append (dependsOn_quoteIdentifier hP hq s) (x := "ALTER TABLE ")
  exact (hstart.append (hP.fixed rfl) (y := " ")).append h

theorem dependsOn_action {words : String} (h : Plain words) (s : String) :
    DependsOn P (words ++ t.quoteIdentifier s) [s] :=
  (hP.plain h).append (dependsOn_quoteIdentifier hP hq s)

theorem dependsOn_dropColumnStatement (s column : String) :
    DependsOn P (t.dropColumnStatement s column) [s, column] :=
  dependsOn_alterTable hP hq (dependsOn_action hP hq (.literal rfl) column) s

theorem dependsOn_dropForeignKeyStatement (s name : String) :
    DependsOn P (t.dropForeignKeyStatement s name) [s, name] := by
  unfold dropForeignKeyStatement
  split
  · exact dependsOn_alterTable hP hq (dependsOn_action hP hq (.literal rfl) name) s
  · exact dependsOn_alterTable hP hq (dependsOn_action hP hq (.literal rfl) name) s

theorem dependsOn_keyStatement :
    DependsOn P (t.keyStatement table f r name) [table.name, name, f.name, r.table, r.column] := by
  have hquoted := dependsOn_quoteIdentifier hP hq
  exact .append (hP.fixed rfl) (.append (hquoted _) (.append (hP.fixed rfl) (.append (hquoted _)
    (.append (hP.fixed rfl) (.append (hquoted _) (.append (hP.fixed rfl) (.append (hquoted _)
      (.append (hP.fixed rfl) (.append (hquoted _) (hP.fixed rfl))))))))))

theorem dependsOn_commaList (names : List String) :
    DependsOn P (commaList (names.map t.quoteIdentifier)) names := by
  induction names with
  | nil => exact hP.fixed rfl
  | cons s names ih =>
    have hs := dependsOn_quoteIdentifier hP hq s
    cases names with
    | nil => exact hs
    | cons s' names => exact (hs.append (hP.fixed rfl) (y := ", ")).append ih

theorem dependsOn_indexStatement (index : Index) {condition : String} (h : Plain condition) :
    DependsOn P (t.indexStatement table index condition)
      (t.indexName table index :: table.name :: index.columns) := by
  have hunique : Plain (if index.unique then "UNIQUE " else "") := by
    split <;> exact .literal rfl
  have hhead : Plain ("CREATE " ++ (if index.unique then "UNIQUE " else "") ++ "INDEX " ++
      condition) := ((Plain.append (.literal rfl) hunique).append (.literal rfl)).append h
  have hquoted := dependsOn_quoteIdentifier hP hq
  have hcolumns := dependsOn_commaList hP hq index.columns
  rw [← List.append_nil (_ :: _)]
  exact (((((dependsOn_action hP hq hhead _).append (hP.fixed rfl)).append (hquoted _)).append
    (hP.fixed rfl)).append hcolumns).append (hP.fixed rfl)

end Names

end Target

end SqlCompose
