/-
Which descriptions make a table, and what the table then has.

Fields are faultless if each has a name of its own and only integral ones are identities. A
description is refused for its first flaw, the one of the field at which it stops being faultless,
and for having two identities only if it has no flaw (`Description.build_eq_error_iff`). In a table
that was built no two fields share a name, so whatever is looked up in it is the only field of its
kind (`Table.Represents`).
-/
import Mathlib.Data.List.Nodup
import SqlCompose.Schema.Description

namespace SqlCompose

/-! ## Flaws -/

/-- Fields that each have a name of their own, and of which only integral ones are identities. -/
structure Faultless (fields : List Field) : Prop where
  names : (fields.map (·.name)).Nodup
  integral : ∀ f ∈ fields, f.isIdentity = true → f.ty.isIntegral = true

/-- What is wrong with a field after fields whose names are `taken`. That its own name is one of
them comes before anything about its type. -/
inductive Field.Flaw (table : String) (taken : List String) (f : Field) : SchemaFault → Prop
  | repeated (h : f.name ∈ taken) : Flaw table taken f (.duplicateField f.name table)
  | miscast (h : f.name ∉ taken) (hid : f.isIdentity = true) (hty : f.ty.isIntegral = false) :
    Flaw table taken f (.identityNotIntegral table f.name f.ty)

theorem Field.Flaw.congr {table : String} {taken taken' : List String} {f : Field}
    {fault : SchemaFault} (h : f.Flaw table taken fault)
    (hmem : f.name ∈ taken ↔ f.name ∈ taken') : f.Flaw table taken' fault := by
  cases h with
  | repeated h => exact .repeated (hmem.1 h)
  | miscast h hid hty => exact .miscast (fun h' => h (hmem.2 h')) hid hty

/-- A field has one flaw at most. -/
theorem Field.Flaw.unique {table : String} {taken : List String} {f : Field}
    {fault fault' : SchemaFault} (h : f.Flaw table taken fault) (h' : f.Flaw table taken fault') :
    fault = fault' := by
  cases h <;> cases h' <;> first | rfl | contradiction

theorem Field.not_flaw {table : String} {taken : List String} {f : Field} {fault : SchemaFault}
    (hname : f.name ∉ taken) (hint : f.isIdentity = true → f.ty.isIntegral = true) :
    ¬ f.Flaw table taken fault := by
  intro h
  cases h with
  | repeated hmem => exact hname hmem
  | miscast _ hid hty => simp [hint hid] at hty

theorem faultless_cons {f : Field} {rest : List Field} :
    Faultless (f :: rest) ↔
      (f.isIdentity = true → f.ty.isIntegral = true) ∧ (∀ g ∈ rest, g.name ≠ f.name) ∧
        Faultless rest := by
  constructor
  · rintro ⟨hnames, hintegral⟩
    simp only [List.map_cons, List.nodup_cons, List.mem_map, not_exists, not_and] at hnames
    simp only [List.forall_mem_cons] at hintegral
    exact ⟨hintegral.1, hnames.1, hnames.2, hintegral.2⟩
  · rintro ⟨hf, hnew, hnames, hintegral⟩
    refine ⟨?_, List.forall_mem_cons.2 ⟨hf, hintegral⟩⟩
    simpa using ⟨hnew, hnames⟩

namespace Description

variable (table : String)

/-- One more field to check: it has a flaw, or has none and its name is taken from then on. -/
theorem firstFault_cons (seen : List String) (f : Field) (rest : List Field) :
    (∃ fault, f.Flaw table seen fault ∧ firstFault table seen (f :: rest) = some fault) ∨
    (f.name ∉ seen ∧ (f.isIdentity = true → f.ty.isIntegral = true) ∧
      firstFault table seen (f :: rest) = firstFault table (f.name :: seen) rest) := by
  rw [firstFault]
  split
  · next hname => exact .inl ⟨_, .repeated hname, rfl⟩
  · next hname =>
    split
    · next hid => exact .inl ⟨_, .miscast hname hid.1 (Bool.eq_false_iff.2 hid.2), rfl⟩
    · next hid => exact .inr ⟨hname, fun h => by simpa [h] using hid, rfl⟩

theorem firstFault_eq_none_iff {seen : List String} {fields : List Field} :
    firstFault table seen fields = none ↔ Faultless fields ∧ ∀ f ∈ fields, f.name ∉ seen := by
  induction fields generalizing seen with
  | nil => simpa [firstFault] using ⟨List.nodup_nil, by simp⟩
  | cons f rest ih =>
    rw [faultless_cons, List.forall_mem_cons]
    obtain ⟨fault, hflaw, h⟩ | ⟨hname, hint, h⟩ := firstFault_cons table seen f rest
    · rw [h]
      simp only [reduceCtorEq, false_iff]
      rintro ⟨⟨hint, -, -⟩, hname, -⟩
      exact Field.not_flaw hname hint hflaw
    · rw [h, ih]
      have hsplit : (∀ g ∈ rest, g.name ∉ f.name :: seen) ↔
          (∀ g ∈ rest, g.name ≠ f.name) ∧ ∀ g ∈ rest, g.name ∉ seen := by
        simp only [List.mem_cons, not_or, forall_and]
      rw [hsplit]
      exact ⟨fun ⟨hrest, hnew, hold⟩ => ⟨⟨hint, hnew, hrest⟩, hname, hold⟩,
        fun ⟨⟨_, hnew, hrest⟩, _, hold⟩ => ⟨hrest, hnew, hold⟩⟩

/-- The first flaw is that of a field after faultless ones. -/
theorem firstFault_eq_some_iff {seen : List String} {fields : List Field} {fault : SchemaFault} :
    firstFault table seen fields = some fault ↔
      ∃ before f after, fields = before ++ f :: after ∧
        (Faultless before ∧ ∀ g ∈ before, g.name ∉ seen) ∧
        f.Flaw table (before.map (·.name) ++ seen) fault := by
  induction fields generalizing seen with
  | nil => simp [firstFault]
  | cons f rest ih =>
    have hclean : Faultless [] := ⟨List.nodup_nil, by simp⟩
    obtain ⟨fault', hflaw, h⟩ | ⟨hname, hint, h⟩ := firstFault_cons table seen f rest
    -- `f` is at fault, so no faultless fields can begin with it.
    · rw [h, Option.some.injEq]
      constructor
      · rintro rfl
        exact ⟨[], f, rest, rfl, ⟨hclean, by simp⟩, hflaw⟩
      · rintro ⟨before, g, after, hfields, ⟨hbefore, hnew⟩, hg⟩
        cases before with
        | nil =>
          cases hfields
          exact hflaw.unique hg
        | cons _ before =>
          cases hfields
          rw [faultless_cons] at hbefore
          exact absurd hflaw (Field.not_flaw (hnew f (by simp)) hbefore.1)
    -- `f` is not, so it is the first of the faultless fields, and what it takes moves from there to
    -- what was seen.
    · rw [h, ih]
      constructor
      · rintro ⟨before, g, after, rfl, ⟨hbefore, hnew⟩, hg⟩
        simp only [List.mem_cons, not_or, forall_and] at hnew
        refine ⟨f :: before, g, after, rfl, ⟨?_, ?_⟩, hg.congr ?_⟩
        · exact faultless_cons.2 ⟨hint, hnew.1, hbefore⟩
        · exact List.forall_mem_cons.2 ⟨hname, hnew.2⟩
        · simp [or_left_comm]
      · rintro ⟨before, g, after, hfields, ⟨hbefore, hnew⟩, hg⟩
        cases before with
        | nil =>
          cases hfields
          exact absurd hg (Field.not_flaw hname hint)
        | cons _ before =>
          cases hfields
          rw [faultless_cons] at hbefore
          obtain ⟨-, hnew⟩ := List.forall_mem_cons.1 hnew
          refine ⟨before, g, after, rfl, ⟨hbefore.2.2, ?_⟩, hg.congr ?_⟩
          · simpa [forall_and] using ⟨hbefore.2.1, hnew⟩
          · simp [or_left_comm]

/-- The flaw of the first field that has one: those before it are faultless. -/
def FirstFlaw (d : Description) (fault : SchemaFault) : Prop :=
  ∃ before f after, d.columns = before ++ f :: after ∧ Faultless before ∧
    f.Flaw d.name (before.map (·.name)) fault

theorem firstFault_columns_eq_none_iff (d : Description) :
    firstFault d.name [] d.columns = none ↔ Faultless d.columns := by
  rw [firstFault_eq_none_iff]
  simp

theorem firstFault_columns_eq_some_iff (d : Description) (fault : SchemaFault) :
    firstFault d.name [] d.columns = some fault ↔ d.FirstFlaw fault := by
  rw [firstFault_eq_some_iff, FirstFlaw]
  simp

theorem build_eq_error_iff (d : Description) (err : Error) :
    d.build = .error err ↔
      (∃ fault, d.FirstFlaw fault ∧ err = .invalidSchema fault) ∨
      (Faultless d.columns ∧ 1 < d.columns.countP (·.isIdentity) ∧
        err = .invalidSchema (.severalIdentities d.name)) := by
  simp only [← firstFault_columns_eq_none_iff, ← firstFault_columns_eq_some_iff]
  rw [build]
  cases firstFault d.name [] d.columns with
  | some fault => simp [eq_comm]
  | none =>
    by_cases hcount : 1 < d.columns.countP (·.isIdentity)
    · simp [hcount, eq_comm]
    · simp [hcount]

/-- When a description makes a table, and which. -/
theorem build_eq_ok_iff (d : Description) (t : Table) :
    d.build = .ok t ↔
      Faultless d.columns ∧ d.columns.countP (·.isIdentity) ≤ 1 ∧
        t = ⟨d.entity, d.name, d.columns⟩ := by
  rw [← firstFault_columns_eq_none_iff, build]
  cases firstFault d.name [] d.columns with
  | some fault => simp
  | none =>
    by_cases hcount : 1 < d.columns.countP (·.isIdentity)
    · simp [hcount, Nat.not_le.2 hcount]
    · simp [hcount, Nat.not_lt.1 hcount, eq_comm]

end Description

/-! ## What a table has -/

namespace Table

/-- `f` is the one field of the table with a mark. -/
def Only (t : Table) (mark : Field → Bool) (f : Field) : Prop :=
  f ∈ t.fields ∧ mark f = true ∧ ∀ g ∈ t.fields, mark g = true → g = f

variable {t : Table} {mark : Field → Bool} {f : Field}

theorem filter_eq_singleton_iff (hnodup : t.fields.Nodup) :
    t.fields.filter mark = [f] ↔ t.Only mark f := by
  constructor
  · intro h
    have hmem (g : Field) : g ∈ t.fields ∧ mark g = true ↔ g = f := by
      rw [← List.mem_filter, h, List.mem_singleton]
    have hf := (hmem f).2 rfl
    exact ⟨hf.1, hf.2, fun g hg hmark => (hmem g).1 ⟨hg, hmark⟩⟩
  · rintro ⟨hf, hmark, hall⟩
    -- All that is chosen is `f`, and it is there once.
    have hrep : t.fields.filter mark = .replicate (t.fields.filter mark).length f := by
      refine List.eq_replicate_iff.2 ⟨rfl, fun g hg => ?_⟩
      exact hall g (List.mem_filter.1 hg).1 (List.mem_filter.1 hg).2
    have hone : (t.fields.filter mark).Nodup := hnodup.filter mark
    rw [hrep, List.nodup_replicate] at hone
    have hpos : 0 < (t.fields.filter mark).length :=
      List.length_pos_of_mem (List.mem_filter.2 ⟨hf, hmark⟩)
    rw [hrep, show (t.fields.filter mark).length = 1 by omega]
    rfl

theorem find?_eq_some_iff (hnodup : t.fields.Nodup) (hone : t.fields.countP mark ≤ 1) :
    t.fields.find? mark = some f ↔ t.Only mark f := by
  rw [← filter_eq_singleton_iff hnodup, ← List.head?_filter]
  rw [List.countP_eq_length_filter] at hone
  match t.fields.filter mark, hone with
  | [], _ => simp
  | [g], _ => simp
  | _ :: _ :: _, hone => simp at hone

theorem idField?_eq_some_iff : t.idField? = some f ↔ t.primaryKeys = [f] := by
  rw [idField?]
  split
  · next hkeys => simp [hkeys]
  · next hkeys => simpa using fun h => hkeys f h

theorem idIndex?_eq_some_iff (hnodup : t.fields.Nodup) {i : Nat} :
    t.idIndex? = some i ↔ ∃ f, t.fields[i]? = some f ∧ t.idField? = some f := by
  constructor
  · intro h
    rw [idIndex?, hasSoleKey] at h
    split at h
    · next hone =>
      obtain ⟨g, hg⟩ := List.length_eq_one_iff.1 (beq_iff_eq.1 hone)
      obtain ⟨hi, hkey, -⟩ := List.findIdx?_eq_some_iff_getElem.1 h
      have hmem : t.fields[i] ∈ t.primaryKeys := List.mem_filter.2 ⟨List.getElem_mem hi, hkey⟩
      rw [hg, List.mem_singleton] at hmem
      exact ⟨g, by rw [List.getElem?_eq_getElem hi, hmem], by rw [idField?, hg]⟩
    · cases h
  · rintro ⟨f, hi, hf⟩
    have hkeys := idField?_eq_some_iff.1 hf
    obtain ⟨-, hkey, hall⟩ := (filter_eq_singleton_iff hnodup).1 hkeys
    obtain ⟨hlt, rfl⟩ := List.getElem?_eq_some_iff.1 hi
    rw [idIndex?, hasSoleKey, hkeys]
    refine List.findIdx?_eq_some_iff_getElem.2 ⟨hlt, hkey, fun j hj hmark => ?_⟩
    have hsame := hall t.fields[j] (List.getElem_mem _) hmark
    have := (List.Nodup.getElem_inj_iff hnodup).1 hsame
    omega

end Table

/-- A table that has the fields of a description, in their order, and in which what is looked up is
the only field of its kind. -/
structure Table.Represents (t : Table) (d : Description) : Prop where
  entity : t.entity = d.entity
  name : t.name = d.name
  fields : t.fields = d.columns
  field : ∀ n f, t.field? n = some f ↔ t.Only (·.name == n) f
  noField : ∀ n, t.field? n = none ↔ ∀ f ∈ t.fields, f.name ≠ n
  id : ∀ f, t.idField? = some f ↔ t.Only (·.primaryKey) f
  /-- The place of the key field is one of the table's, and there is a place where there is a key
  field. -/
  idIndex : ∀ i, t.idIndex? = some i ↔ ∃ f, t.fields[i]? = some f ∧ t.idField? = some f
  identity : ∀ f, t.identityField? = some f ↔ t.Only (·.isIdentity) f
  noIdentity : t.identityField? = none ↔ ∀ f ∈ t.fields, f.isIdentity = false

namespace Description

theorem countP_name_le_one {fields : List Field} (h : (fields.map (·.name)).Nodup) (n : String) :
    fields.countP (·.name == n) ≤ 1 := by
  have hcount := List.nodup_iff_count_le_one.1 h n
  rwa [List.count_eq_countP, List.countP_map] at hcount

theorem represents_of_build {d : Description} {t : Table} (h : d.build = .ok t) :
    t.Represents d := by
  obtain ⟨⟨hnames, -⟩, hone, rfl⟩ := (d.build_eq_ok_iff t).1 h
  have hnodup : d.columns.Nodup := hnames.of_map _
  exact
    { entity := rfl
      name := rfl
      fields := rfl
      field := fun n f => Table.find?_eq_some_iff hnodup (countP_name_le_one hnames n)
      noField := fun n => by simp [Table.field?]
      id := fun f => Table.idField?_eq_some_iff.trans (Table.filter_eq_singleton_iff hnodup)
      idIndex := fun i => Table.idIndex?_eq_some_iff hnodup
      identity := fun f => Table.find?_eq_some_iff hnodup hone
      noIdentity := by simp [Table.identityField?] }

/-- **Descriptions are checked exactly.** One makes a table if its fields, without the ignored ones,
are faultless and at most one is an identity. Otherwise it is refused for its first flaw, or for its
identities if it has none. The table has these fields and finds each by what sets it apart. -/
theorem build_checked (d : Description) :
    ((∃ t, d.build = .ok t) ↔
      (d.columns.map (·.name)).Nodup ∧
        (∀ f ∈ d.columns, f.isIdentity = true → f.ty.isIntegral = true) ∧
        d.columns.countP (·.isIdentity) ≤ 1) ∧
    (∀ err, d.build = .error err ↔
      (∃ fault, d.FirstFlaw fault ∧ err = .invalidSchema fault) ∨
      ((∀ fault, ¬ d.FirstFlaw fault) ∧ 1 < d.columns.countP (·.isIdentity) ∧
        err = .invalidSchema (.severalIdentities d.name))) ∧
    ∀ t, d.build = .ok t → t.Represents d := by
  refine ⟨?_, fun err => ?_, fun t => represents_of_build⟩
  · simp only [build_eq_ok_iff]
    constructor
    · rintro ⟨t, ⟨hnames, hintegral⟩, hone, -⟩
      exact ⟨hnames, hintegral, hone⟩
    · rintro ⟨hnames, hintegral, hone⟩
      exact ⟨_, ⟨hnames, hintegral⟩, hone, rfl⟩
  · rw [build_eq_error_iff]
    simp only [← firstFault_columns_eq_none_iff, ← firstFault_columns_eq_some_iff]
    rw [← Option.eq_none_iff_forall_ne_some]

/-- A field that is ignored neither takes a name nor counts as an identity, and a repeated name is
reported before the type of the same field and before all that comes later. -/
theorem build_checked_first_flaw :
    let id : Field := { name := "Id", ty := .long, primaryKey := true, identity := some {} }
    let shadow : Field := { name := "Id", ty := .string, identity := some {}, ignore := true }
    let name : Field := { name := "Name", ty := .string }
    let again : Field := { name := "Name", ty := .string, identity := some {} }
    let good : Description := { entity := "Person", fields := [shadow, id, name] }
    let bad : Description := { entity := "Person", fields := [id, name, again, id] }
    (∃ t, good.build = .ok t ∧ t.Represents good ∧ t.idIndex? = some 0) ∧
      bad.FirstFlaw (.duplicateField "Name" "Person") ∧
      bad.build = .error (.invalidSchema (.duplicateField "Name" "Person")) := by
  intro id shadow name again good bad
  have hgood : good.build = .ok ⟨"Person", "Person", [id, name]⟩ := rfl
  have hflaw : bad.FirstFlaw (.duplicateField "Name" "Person") := by
    refine ⟨[id, name], again, [id], rfl, ⟨by decide, ?_⟩, .repeated (by decide)⟩
    intro f hf hid
    simp only [List.mem_cons, List.not_mem_nil, or_false] at hf
    rcases hf with rfl | rfl
    · rfl
    · cases hid
  obtain ⟨-, -, hrepresents⟩ := good.build_checked
  obtain ⟨-, herror, -⟩ := bad.build_checked
  exact ⟨⟨_, hgood, hrepresents _ hgood, rfl⟩, hflaw, (herror _).2 (.inl ⟨_, hflaw, rfl⟩)⟩

end Description

end SqlCompose
