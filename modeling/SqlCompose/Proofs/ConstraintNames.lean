/-
Which of a table's constraints get the same name.

A made-up name is put together with underscores, and a column or a table can have underscores in its
own name. An index without a name has one column, and that is all that its name adds to the table's,
so no two are alike. A foreign key's name has the column and then the table and column it refers to.
Two of them are alike just when one column goes on, after the other, with the beginning of what the
other refers to (`Overlap`), which takes underscores on both sides.
-/
import Mathlib.Data.List.Nodup
import SqlCompose.Ddl.Naming
import SqlCompose.Proofs.Descriptions
import SqlCompose.Proofs.TablePlans

namespace SqlCompose

/-! ## Indexes without names -/

/-- The index that a field has for itself. -/
def Field.ownIndex? (f : Field) : Option Index :=
  match f.index with
  | some ⟨none, unique⟩ => some ⟨none, [f.name], unique⟩
  | _ => none

namespace Index

/-- A column more for a named index is nothing to those without names. -/
theorem filter_extend (name column : String) (unique : Bool) (indexes : List Index) :
    (extend name column unique indexes).filter (·.name.isNone) =
      indexes.filter (·.name.isNone) := by
  induction indexes with
  | nil => rfl
  | cons ix rest ih =>
    rw [extend]
    split
    · next hname => simp [hname]
    · rw [List.filter_cons, List.filter_cons, ih]

theorem filter_absorb (indexes : List Index) (f : Field) :
    (absorb indexes f).filter (·.name.isNone) =
      indexes.filter (·.name.isNone) ++ f.ownIndex?.toList := by
  rw [absorb, Field.ownIndex?]
  split
  · next h => simp [h]
  · next h => simp [h]
  · next h => simp [h, filter_extend]

theorem filter_foldl_absorb (fields : List Field) (indexes : List Index) :
    (fields.foldl absorb indexes).filter (·.name.isNone) =
      indexes.filter (·.name.isNone) ++ fields.filterMap Field.ownIndex? := by
  induction fields generalizing indexes with
  | nil => simp
  | cons f fields ih =>
    rw [List.foldl_cons, ih, filter_absorb, List.append_assoc, List.filterMap_cons]
    cases f.ownIndex? <;> rfl

end Index

namespace Table

variable {table : Table}

theorem filter_indexes (table : Table) :
    table.indexes.filter (·.name.isNone) = table.fields.filterMap Field.ownIndex? := by
  rw [indexes, Index.filter_foldl_absorb]
  rfl

/-! ## References without names -/

/-- The fields with references that do not name their constraints. -/
def namelessReferences (table : Table) : List (Field × Reference) :=
  table.fields.filterMap fun f => (f.reference.filter (·.constraint.isNone)).map (f, ·)

theorem mem_namelessReferences_iff {x : Field × Reference} :
    x ∈ table.namelessReferences ↔
      x.1 ∈ table.fields ∧ x.1.reference = some x.2 ∧ x.2.constraint = none := by
  obtain ⟨f, r⟩ := x
  simp only [namelessReferences, List.mem_filterMap, Option.map_eq_some_iff,
    Option.filter_eq_some_iff, Option.isNone_iff_eq_none, Prod.mk.injEq]
  constructor
  · rintro ⟨f, hf, r, hr, rfl, rfl⟩
    exact ⟨hf, hr⟩
  · rintro ⟨hf, hr⟩
    exact ⟨f, hf, r, hr, rfl, rfl⟩

theorem nodup_namelessReferences (hnodup : table.fields.Nodup) :
    table.namelessReferences.Nodup := by
  refine hnodup.filterMap fun f g x hf hg => ?_
  obtain ⟨r, -, rfl⟩ := Option.map_eq_some_iff.1 hf
  obtain ⟨s, -, hs⟩ := Option.map_eq_some_iff.1 hg
  exact (congrArg Prod.fst hs).symm

end Table

/-! ## Names that overlap -/

/-- What the name of a foreign key ends with. -/
def Reference.target (r : Reference) : String := r.table ++ "_" ++ r.column

/-- The column of `y` is that of `x`, an underscore and some text, and what `x` refers to is that
text, an underscore and what `y` refers to. -/
def Overlap (x y : Field × Reference) : Prop :=
  ∃ text : String, y.1.name = x.1.name ++ "_" ++ text ∧
    x.2.target = text ++ "_" ++ y.2.target

/-- If `b` goes on after `a`, it goes on with an underscore and the beginning of `p`. -/
theorem exists_text_between {a b p q : String} (hab : a ≠ b) {cs : List Char}
    (hb : b.toList = a.toList ++ cs) (hp : '_' :: p.toList = cs ++ '_' :: q.toList) :
    ∃ text, b = a ++ "_" ++ text ∧ p = text ++ "_" ++ q := by
  cases cs with
  | nil => exact absurd (String.toList_inj.1 (by simpa using hb.symm)) hab
  | cons c cs =>
    rw [List.cons_append] at hp
    obtain ⟨rfl, htail⟩ := List.cons.inj hp
    refine ⟨.ofList cs, ?_, ?_⟩
    · exact String.toList_inj.1 (by simp [hb])
    · exact String.toList_inj.1 (by simp [htail])

theorem append_underscore_eq_iff {a b p q : String} (hab : a ≠ b) :
    a ++ "_" ++ p = b ++ "_" ++ q ↔
      (∃ text, b = a ++ "_" ++ text ∧ p = text ++ "_" ++ q) ∨
      ∃ text, a = b ++ "_" ++ text ∧ q = text ++ "_" ++ p := by
  constructor
  · intro h
    have hchars : a.toList ++ '_' :: p.toList = b.toList ++ '_' :: q.toList := by
      simpa using congrArg String.toList h
    obtain ⟨cs, hb, hp⟩ | ⟨cs, ha, hq⟩ := List.append_eq_append_iff.1 hchars
    · exact .inl (exists_text_between hab hb hp)
    · exact .inr (exists_text_between hab.symm ha hq)
  · rintro (⟨text, rfl, rfl⟩ | ⟨text, rfl, rfl⟩) <;> simp only [String.append_assoc]

/-- A column that another one overlaps with has an underscore, and so has what it refers to, beside
the one that stands between a table and a column. -/
theorem Overlap.underscores {x y : Field × Reference} (h : Overlap x y) :
    '_' ∈ y.1.name.toList ∧ ('_' ∈ x.2.table.toList ∨ '_' ∈ x.2.column.toList) := by
  obtain ⟨text, hname, htarget⟩ := h
  refine ⟨by simp [hname], ?_⟩
  by_contra hno
  rw [not_or] at hno
  have hone : x.2.target.toList.count '_' = 1 := by
    simp [Reference.target, List.count_eq_zero.2 hno.1, List.count_eq_zero.2 hno.2]
  have htwo : 2 ≤ x.2.target.toList.count '_' := by
    rw [htarget]
    simp only [Reference.target, String.toList_append, List.count_append]
    have hunderscore : "_".toList.count '_' = 1 := by decide
    omega
  omega

theorem Overlap.ne {x y : Field × Reference} (h : Overlap x y) : x ≠ y := by
  rintro rfl
  obtain ⟨text, hname, -⟩ := h
  have hlength := congrArg String.length hname
  have hunderscore : "_".length = 1 := by decide
  rw [String.length_append, String.length_append] at hlength
  omega

/-! ## Names of a table's constraints -/

namespace Target

open Ddl

variable {t : Target} {table : Table}

theorem cutName_zero (name : String) : cutName 0 name = name := if_pos (.inl rfl)

theorem indexName_of_ownIndex? (ht : t.options.maxConstraintName = 0) {f : Field} {index : Index}
    (h : f.ownIndex? = some index) :
    t.indexName table index = "IX_" ++ table.name ++ "_" ++ f.name := by
  rw [Field.ownIndex?] at h
  split at h
  · cases h
    rw [indexName, ht, cutName_zero]
    rfl
  · cases h

theorem nodup_indexNames (ht : t.options.maxConstraintName = 0)
    (hnames : (table.fields.map (·.name)).Nodup) :
    ((table.indexes.filter (·.name.isNone)).map (t.indexName table)).Nodup := by
  rw [Table.filter_indexes, List.Nodup, List.pairwise_map, List.pairwise_filterMap]
  refine (List.pairwise_map.1 hnames).imp fun {f g} hne ix hf ix' hg heq => hne ?_
  rw [indexName_of_ownIndex? ht hf, indexName_of_ownIndex? ht hg] at heq
  exact (String.append_right_inj _).1 heq

/-- The name of a foreign key that has none of its own. -/
def madeUpName (table : Table) (x : Field × Reference) : String :=
  "FK_" ++ (table.name ++ "_" ++ (x.1.name ++ "_" ++ x.2.target))

theorem foreignKeyName_of_nameless (ht : t.options.maxConstraintName = 0) {x : Field × Reference}
    (hx : x ∈ table.namelessReferences) : t.foreignKeyName table x.1 = .ok (madeUpName table x) := by
  obtain ⟨-, hr, hc⟩ := Table.mem_namelessReferences_iff.1 hx
  have hname : t.foreignKeyName table x.1 =
      .ok (x.2.constraint.getD
        (cutName t.options.maxConstraintName (madeUpForeignKey table x.1 x.2))) := by
    rw [foreignKeyName, reference, hr]
    rfl
  rw [hname, hc, ht, cutName_zero]
  rfl

/-- Two references of a table get the same name if they are one or if they overlap. -/
theorem madeUpName_eq_iff (hnames : (table.fields.map (·.name)).Nodup) {x y : Field × Reference}
    (hx : x ∈ table.namelessReferences) (hy : y ∈ table.namelessReferences) :
    madeUpName table x = madeUpName table y ↔ x = y ∨ Overlap x y ∨ Overlap y x := by
  have hparts : madeUpName table x = madeUpName table y ↔
      x.1.name ++ "_" ++ x.2.target = y.1.name ++ "_" ++ y.2.target := by
    rw [madeUpName, madeUpName, String.append_right_inj, String.append_right_inj]
  rw [hparts]
  by_cases hcolumn : x.1.name = y.1.name
  · -- A table has one field of the name, and a field one reference.
    obtain ⟨hfx, hrx, -⟩ := Table.mem_namelessReferences_iff.1 hx
    obtain ⟨hfy, hry, -⟩ := Table.mem_namelessReferences_iff.1 hy
    have hfield : x.1 = y.1 := List.inj_on_of_nodup_map hnames hfx hfy hcolumn
    have hreference : x.2 = y.2 := Option.some.inj (by rw [← hrx, ← hry, hfield])
    have hxy : x = y := Prod.ext hfield hreference
    exact iff_of_true (by rw [hxy]) (.inl hxy)
  · have hne : x ≠ y := fun h => hcolumn (by rw [h])
    rw [append_underscore_eq_iff hcolumn, or_iff_right hne]
    rfl

theorem nodup_madeUpNames_iff (hnames : (table.fields.map (·.name)).Nodup) :
    (table.namelessReferences.map (madeUpName table)).Nodup ↔
      ∀ x ∈ table.namelessReferences, ∀ y ∈ table.namelessReferences, ¬ Overlap x y := by
  constructor
  · intro h x hx y hy hover
    have hsame := (madeUpName_eq_iff hnames hx hy).2 (.inr (.inl hover))
    exact hover.ne (List.inj_on_of_nodup_map h hx hy hsame)
  · intro h
    refine List.Nodup.map_on (fun x hx y hy hsame => ?_)
      (Table.nodup_namelessReferences (hnames.of_map _))
    obtain hxy | hover | hover := (madeUpName_eq_iff hnames hx hy).1 hsame
    · exact hxy
    · exact absurd hover (h x hx y hy)
    · exact absurd hover (h y hy x hx)

/-- **Made-up names of one table.** Where names are not cut, those of its indexes are different.
Those of its foreign keys are different unless two references overlap, which takes an underscore in
a column that refers to something and another one in what a column refers to. -/
theorem constraintNames_apart {d : Description} (hb : d.build = .ok table)
    (ht : t.options.maxConstraintName = 0) :
    ((table.indexes.filter (·.name.isNone)).map (t.indexName table)).Nodup ∧
    ∃ names, (table.namelessReferences.mapM fun x => t.foreignKeyName table x.1) = .ok names ∧
      (names.Nodup ↔
        ∀ x ∈ table.namelessReferences, ∀ y ∈ table.namelessReferences, ¬ Overlap x y) ∧
      ((∀ x ∈ table.namelessReferences, '_' ∉ x.1.name.toList) ∨
        (∀ x ∈ table.namelessReferences, '_' ∉ x.2.table.toList ∧ '_' ∉ x.2.column.toList) →
          names.Nodup) := by
  obtain ⟨⟨hnames, -⟩, -, rfl⟩ := (d.build_eq_ok_iff table).1 hb
  let table : Table := ⟨d.entity, d.name, d.columns⟩
  have hapart := @nodup_madeUpNames_iff table hnames
  refine ⟨nodup_indexNames ht hnames, _, mapM_eq_ok_iff.2 (List.forall₂_map_right_iff.2
    (List.forall₂_same.2 fun x hx => foreignKeyName_of_nameless ht hx)), hapart, fun hfree => ?_⟩
  refine hapart.2 fun x hx y hy hover => ?_
  obtain ⟨hcolumn, htarget⟩ := hover.underscores
  obtain hfree | hfree := hfree
  · exact hfree y hy hcolumn
  · exact htarget.elim (hfree x hx).1 (hfree x hx).2

/-- One column's name begins the other's, and an index with a name of its own has one that looks
made up. -/
theorem constraintNames_apart_underscored_columns :
    let d : Description :=
      { entity := "T"
        fields :=
          [ (Field.referencing "Owner" "Id" { name := "owner", ty := .integer }).indexed,
            (Field.referencing "Team" "Id" { name := "owner_Team", ty := .integer }).indexed,
            Field.indexedAs "IX_T_owner" { name := "Id", ty := .integer } ] }
    let t : Target := { options := { maxConstraintName := 0 } }
    ∃ table, d.build = .ok table ∧ t.options.maxConstraintName = 0 ∧
      (table.indexes.filter (·.name.isNone)).map (t.indexName table) =
        ["IX_T_owner", "IX_T_owner_Team"] ∧
      ((table.indexes.filter (·.name.isNone)).map (t.indexName table)).Nodup ∧
      (∀ x ∈ table.namelessReferences, '_' ∉ x.2.table.toList ∧ '_' ∉ x.2.column.toList) ∧
      ∃ names, (table.namelessReferences.mapM fun x => t.foreignKeyName table x.1) = .ok names ∧
        names.Nodup := by
  intro d t
  have hb : d.build = .ok ⟨"T", "T", d.fields⟩ := rfl
  obtain ⟨hindexes, names, hnames, -, hfree⟩ := constraintNames_apart (t := t) hb rfl
  have htargets : ∀ x ∈ (⟨"T", "T", d.fields⟩ : Table).namelessReferences,
      '_' ∉ x.2.table.toList ∧ '_' ∉ x.2.column.toList := by decide
  exact ⟨_, hb, rfl, by decide, hindexes, htargets, names, hnames, hfree (.inr htargets)⟩

/-- One column is `a_b` and refers to `c`, the other is `a` and refers to `b_c`. A guard that asks
for the name of the second finds the first. -/
theorem constraintNames_collide :
    let f : Field := Field.referencing "c" "d" { name := "a_b", ty := .integer }
    let g : Field := Field.referencing "b_c" "d" { name := "a", ty := .integer }
    let t : Target := { dialect := .postgres, options := { maxConstraintName := 0 } }
    ∃ table, Description.build { entity := "T", fields := [f, g] } = .ok table ∧
      t.foreignKeyName table f = .ok "FK_T_a_b_c_d" ∧
      t.foreignKeyName table g = .ok "FK_T_a_b_c_d" ∧
      ∃ names, (table.namelessReferences.mapM fun x => t.foreignKeyName table x.1) = .ok names ∧
        ¬ names.Nodup :=
  ⟨_, rfl, rfl, rfl, _, rfl, by decide⟩

end Target

end SqlCompose
