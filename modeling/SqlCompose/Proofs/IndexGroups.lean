/-
The indexes of a table as groups of its fields.

Fields are taken in one after the other. One more leaves the indexes as they are, opens an index of
its own or joins the one with its name, wherever that stands (`Absorbs`), and then each index is
again the whole group of some field (`Grouped.step`). What is asked of the indexes of a table,
`Table.IndexedBy`, says nothing of such steps. It leaves no choice: two lists of indexes that meet
it are equal.
-/
import Mathlib.Data.List.Nodup
import Mathlib.Data.List.Perm.Basic
import SqlCompose.Proofs.Descriptions
import SqlCompose.Schema.Table

namespace SqlCompose

def Field.isMarked (name : String) (f : Field) : Bool := f.indexMark.name == some name

theorem Field.isMarked_iff {name : String} {f : Field} :
    f.isMarked name = true ↔ f.indexMark.name = some name := beq_iff_eq

theorem Field.indexMark_of_eq_some {f : Field} {mark : IndexMark} (h : f.index = some mark) :
    f.indexMark = mark := by
  rw [indexMark, h]
  rfl

namespace Index

variable {fields : List Field} {indexes next : List Index} {f : Field} {mark : IndexMark}

/-! ## One more field -/

def grow (column : String) (unique : Bool) (ix : Index) : Index :=
  { ix with columns := ix.columns ++ [column], unique := ix.unique || unique }

@[simp] theorem grow_name (column : String) (unique : Bool) (ix : Index) :
    (ix.grow column unique).name = ix.name := rfl

@[simp] theorem grow_columns (column : String) (unique : Bool) (ix : Index) :
    (ix.grow column unique).columns = ix.columns ++ [column] := rfl

/-- All that one more field can do to the indexes. -/
inductive Absorbs (indexes : List Index) (f : Field) : List Index → Prop
  | skips (h : f.index = none) : Absorbs indexes f indexes
  | opens {mark : IndexMark} (h : f.index = some mark)
      (hnew : ∀ name, mark.name = some name → name ∉ indexes.filterMap (·.name)) :
    Absorbs indexes f (indexes ++ [⟨mark.name, [f.name], mark.unique⟩])
  | joins {name : String} {unique : Bool} {before after : List Index} {ix : Index}
      (h : f.index = some ⟨some name, unique⟩) (hsplit : indexes = before ++ ix :: after)
      (hname : ix.name = some name) :
    Absorbs indexes f (before ++ ix.grow f.name unique :: after)

theorem extend_cases (name column : String) (unique : Bool) (indexes : List Index) :
    (name ∉ indexes.filterMap (·.name) ∧
      extend name column unique indexes = indexes ++ [⟨some name, [column], unique⟩]) ∨
    ∃ before ix after, indexes = before ++ ix :: after ∧ ix.name = some name ∧
      extend name column unique indexes = before ++ ix.grow column unique :: after := by
  induction indexes with
  | nil => exact .inl ⟨by simp, rfl⟩
  | cons ix rest ih =>
    rw [extend]
    split
    · next hname => exact .inr ⟨[], ix, rest, rfl, hname, rfl⟩
    · next hname =>
      obtain ⟨hnew, h⟩ | ⟨before, found, after, rfl, hfound, h⟩ := ih
      · rw [h]
        refine .inl ⟨fun hmem => ?_, rfl⟩
        simp only [List.mem_filterMap, List.mem_cons, exists_eq_or_imp, hname, false_or] at hmem
        exact hnew (List.mem_filterMap.2 hmem)
      · rw [h]
        exact .inr ⟨ix :: before, found, after, rfl, hfound, rfl⟩

theorem absorbs_absorb (indexes : List Index) (f : Field) :
    Absorbs indexes f (absorb indexes f) := by
  rw [absorb]
  split
  · next h => exact .skips h
  · next unique h => exact .opens h fun _ hname => by cases hname
  · next name unique h =>
    obtain ⟨hnew, hextend⟩ | ⟨before, ix, after, hsplit, hname, hextend⟩ :=
      extend_cases name f.name unique indexes
    · rw [hextend]
      refine .opens h fun other hother => ?_
      rwa [← Option.some.inj hother]
    · rw [hextend]
      exact .joins h hsplit hname

/-! ## Whole groups -/

/-- The index of a name, for all fields that have a part in it. -/
def ofName (fields : List Field) (name : String) : Index where
  name := some name
  columns := (fields.filter (·.isMarked name)).map (·.name)
  unique := (fields.filter (·.isMarked name)).any (·.indexMark.unique)

theorem ofName_append {name : String} (hmark : f.isMarked name = true) :
    ofName (fields ++ [f]) name = (ofName fields name).grow f.name f.indexMark.unique := by
  simp [ofName, grow, hmark]

/-- An index has the columns of a whole group: of one field, if its mark has no name, or of all
fields with marks of one name. -/
inductive Gathers (fields : List Field) : Index → List Field → Prop
  | alone {f : Field} {unique : Bool} (hf : f ∈ fields) (h : f.index = some ⟨none, unique⟩) :
    Gathers fields ⟨none, [f.name], unique⟩ [f]
  | shared (name : String) :
    Gathers fields (ofName fields name) (fields.filter (·.isMarked name))

namespace Gathers

variable {ix : Index} {group : List Field}

theorem sublist (h : Gathers fields ix group) : group.Sublist fields := by
  cases h with
  | alone hf _ => exact List.singleton_sublist.2 hf
  | shared name => exact List.filter_sublist

theorem columns (h : Gathers fields ix group) : ix.columns = group.map (·.name) := by
  cases h <;> rfl

theorem unique_iff (h : Gathers fields ix group) :
    ix.unique = true ↔ ∃ f ∈ group, f.indexMark.unique = true := by
  cases h with
  | alone _ h => simp [Field.indexMark_of_eq_some h]
  | shared name => exact List.any_eq_true

/-- A field without a name for its index is all that there is in it. -/
theorem eq_singleton (h : Gathers fields ix group) (hf : f ∈ group)
    (hmark : f.indexMark.name = none) : ix.name = none ∧ group = [f] := by
  cases h with
  | alone => exact ⟨rfl, by rw [List.mem_singleton.1 hf]⟩
  | shared name =>
    have hname := Field.isMarked_iff.1 (List.mem_filter.1 hf).2
    simp [hmark] at hname

/-- A field that names its index is there with all others that do. -/
theorem eq_filter (h : Gathers fields ix group) (hf : f ∈ group) {name : String}
    (hmark : f.indexMark.name = some name) :
    ix.name = some name ∧ group = fields.filter (·.isMarked name) := by
  cases h with
  | alone _ h =>
    rw [List.mem_singleton.1 hf, Field.indexMark_of_eq_some h] at hmark
    cases hmark
  | shared other =>
    have hother := Field.isMarked_iff.1 (List.mem_filter.1 hf).2
    obtain rfl : name = other := Option.some.inj (hmark.symm.trans hother)
    exact ⟨rfl, rfl⟩

theorem eq_ofName (h : Gathers fields ix group) {name : String} (hname : ix.name = some name) :
    ix = ofName fields name := by
  cases h with
  | alone => cases hname
  | shared other =>
    obtain rfl : other = name := Option.some.inj hname
    rfl

/-- One more field is nothing to an index that it has no part in. -/
theorem append (h : Gathers fields ix group)
    (hother : ix.name = f.indexMark.name → ix.name = none) :
    Gathers (fields ++ [f]) ix group := by
  cases h with
  | alone hf h => exact .alone (List.mem_append_left _ hf) h
  | shared name =>
    have hmark : f.isMarked name = false := Bool.eq_false_iff.2 fun hmark => by
      cases hother (Field.isMarked_iff.1 hmark).symm
    have hfilter : (fields ++ [f]).filter (·.isMarked name) = fields.filter (·.isMarked name) := by
      simp [hmark]
    have hshared : Gathers (fields ++ [f]) (ofName (fields ++ [f]) name) _ := .shared name
    rwa [ofName, hfilter] at hshared

end Gathers

theorem exists_first
    (h : (indexes.map (·.columns.head?)).Sublist (fields.map (some ·.name))) {ix : Index}
    (hix : ix ∈ indexes) : ∃ f ∈ fields, ix.columns.head? = some f.name := by
  obtain ⟨f, hf, hfirst⟩ := List.mem_map.1 (h.mem (List.mem_map_of_mem hix))
  exact ⟨f, hf, hfirst.symm⟩

/-- What the indexes are once some fields are taken in. A name that a field has for its index is
among those of the indexes (`named`), so that one without the name can open a new one. -/
structure Grouped (fields : List Field) (indexes : List Index) : Prop where
  placed : (indexes.flatMap (·.columns)).Perm ((fields.filter (·.index.isSome)).map (·.name))
  gathers : ∀ ix ∈ indexes, ∃ group, Gathers fields ix group
  apart : (indexes.filterMap (·.name)).Nodup
  named : ∀ f ∈ fields, ∀ name, f.isMarked name = true → name ∈ indexes.filterMap (·.name)
  ordered : (indexes.map (·.columns.head?)).Sublist (fields.map (some ·.name))

namespace Grouped

theorem nil : Grouped [] [] where
  placed := .refl _
  gathers := by simp
  apart := .nil
  named := by simp
  ordered := .refl _

theorem skips (h : Grouped fields indexes) (hf : f.index = none) :
    Grouped (fields ++ [f]) indexes := by
  have hunmarked : f.indexMark.name = none := by rw [Field.indexMark, hf]; rfl
  exact
    { placed := by simpa [List.filter_append, hf] using h.placed
      gathers := by
        intro ix hix
        obtain ⟨group, hgroup⟩ := h.gathers ix hix
        exact ⟨group, hgroup.append fun hname => hname.trans hunmarked⟩
      apart := h.apart
      named := by
        rw [List.forall_mem_append, List.forall_mem_singleton]
        exact ⟨h.named, fun name hmark => by simp [Field.isMarked_iff, hunmarked] at hmark⟩
      ordered := h.ordered.trans ((List.sublist_append_left _ _).map _) }

/-- An index that is opened is the group of its field, as no field before it has the name. -/
theorem gathers_opened (h : Grouped fields indexes) (hf : f.index = some mark)
    (hnew : ∀ name, mark.name = some name → name ∉ indexes.filterMap (·.name)) :
    Gathers (fields ++ [f]) ⟨mark.name, [f.name], mark.unique⟩ [f] := by
  obtain ⟨_ | name, unique⟩ := mark
  · exact .alone (by simp) hf
  · have hmark : f.isMarked name = true :=
      Field.isMarked_iff.2 (by rw [Field.indexMark_of_eq_some hf])
    have hnone : fields.filter (·.isMarked name) = [] :=
      List.filter_eq_nil_iff.2 fun g hg hgmark => hnew name rfl (h.named g hg name hgmark)
    have hfilter : (fields ++ [f]).filter (·.isMarked name) = [f] := by
      rw [List.filter_append, hnone]
      simp [hmark]
    have hshared : Gathers (fields ++ [f]) (ofName (fields ++ [f]) name) _ := .shared name
    rw [ofName, hfilter] at hshared
    simpa [Field.indexMark_of_eq_some hf] using hshared

theorem opens (h : Grouped fields indexes) (hf : f.index = some mark)
    (hnew : ∀ name, mark.name = some name → name ∉ indexes.filterMap (·.name)) :
    Grouped (fields ++ [f]) (indexes ++ [⟨mark.name, [f.name], mark.unique⟩]) where
  placed := by simpa [List.filter_append, hf] using h.placed.append_right [f.name]
  gathers := by
    rw [List.forall_mem_append, List.forall_mem_singleton]
    refine ⟨fun ix hix => ?_, [f], h.gathers_opened hf hnew⟩
    obtain ⟨group, hgroup⟩ := h.gathers ix hix
    refine ⟨group, hgroup.append fun hmark => Option.eq_none_iff_forall_ne_some.2 ?_⟩
    intro name hname
    rw [Field.indexMark_of_eq_some hf, hname] at hmark
    exact hnew name hmark.symm (List.mem_filterMap.2 ⟨ix, hix, hname⟩)
  apart := by
    rw [List.filterMap_append]
    cases hname : mark.name with
    | none => simpa using h.apart
    | some name => simpa using h.apart.concat (hnew name hname)
  named := by
    rw [List.forall_mem_append, List.forall_mem_singleton]
    simp only [List.filterMap_append, List.mem_append]
    refine ⟨fun g hg name hmark => .inl (h.named g hg name hmark), fun name hmark => .inr ?_⟩
    rw [Field.isMarked_iff, Field.indexMark_of_eq_some hf] at hmark
    simp [hmark]
  ordered := by
    rw [List.map_append, List.map_append]
    exact h.ordered.append (.refl _)

variable {before after : List Index} {ix : Index} {name : String} {unique : Bool}

/-- The index of a name is no other. -/
theorem name_ne (h : Grouped fields (before ++ ix :: after)) (hname : ix.name = some name) :
    ∀ other ∈ before ++ after, other.name ≠ some name := by
  have hapart := h.apart
  rw [List.filterMap_append, List.filterMap_cons_some hname, List.nodup_middle,
    List.nodup_cons, ← List.filterMap_append] at hapart
  exact fun other hother h' => hapart.1 (List.mem_filterMap.2 ⟨other, hother, h'⟩)

/-- The index of a name grows with its group, and the others are groups as they were. -/
theorem gathers_grown (h : Grouped fields (before ++ ix :: after))
    (hmark : f.indexMark = ⟨some name, unique⟩) (hname : ix.name = some name) :
    ∀ other ∈ before ++ ix.grow f.name unique :: after,
      ∃ group, Gathers (fields ++ [f]) other group := by
  have hgathers := h.gathers
  have hne := h.name_ne hname
  simp only [List.forall_mem_append, List.forall_mem_cons] at hgathers hne ⊢
  have hsame : ∀ other : Index, other.name ≠ some name → (∃ group, Gathers fields other group) →
      ∃ group, Gathers (fields ++ [f]) other group := by
    rintro other hother ⟨group, hgroup⟩
    exact ⟨group, hgroup.append fun heq => absurd (heq.trans (by rw [hmark])) hother⟩
  have hgrown : ofName (fields ++ [f]) name = ix.grow f.name unique := by
    obtain ⟨group, hgroup⟩ := hgathers.2.1
    rw [ofName_append (Field.isMarked_iff.2 (by rw [hmark])), ← hgroup.eq_ofName hname, hmark]
  refine ⟨fun other hmem => hsame other (hne.1 other hmem) (hgathers.1 other hmem), ?_,
    fun other hmem => hsame other (hne.2 other hmem) (hgathers.2.2 other hmem)⟩
  rw [← hgrown]
  exact ⟨_, .shared name⟩

theorem joins (h : Grouped fields (before ++ ix :: after))
    (hf : f.index = some ⟨some name, unique⟩) (hname : ix.name = some name) :
    Grouped (fields ++ [f]) (before ++ ix.grow f.name unique :: after) := by
  have hmark := Field.indexMark_of_eq_some hf
  have hnames : (before ++ ix.grow f.name unique :: after).filterMap (·.name) =
      (before ++ ix :: after).filterMap (·.name) := by
    simp [List.filterMap_append, List.filterMap_cons]
  have hcolumns : ((before ++ ix.grow f.name unique :: after).flatMap (·.columns)).Perm
      ((before ++ ix :: after).flatMap (·.columns) ++ [f.name]) := by
    simp only [List.flatMap_append, List.flatMap_cons, grow_columns, List.append_assoc]
    exact (List.perm_append_comm.append_left _).append_left _
  have hfirsts : (before ++ ix.grow f.name unique :: after).map (·.columns.head?) =
      (before ++ ix :: after).map (·.columns.head?) := by
    obtain ⟨g, -, hg⟩ := exists_first h.ordered (List.mem_append_cons_self : ix ∈ _)
    simp [List.head?_append, hg]
  exact
    { placed := by
        simpa [List.filter_append, hf] using hcolumns.trans (h.placed.append_right [f.name])
      gathers := h.gathers_grown hmark hname
      apart := hnames ▸ h.apart
      named := by
        rw [hnames, List.forall_mem_append, List.forall_mem_singleton]
        refine ⟨h.named, fun other hother => ?_⟩
        rw [Field.isMarked_iff, hmark] at hother
        exact List.mem_filterMap.2 ⟨ix, List.mem_append_cons_self, hname.trans hother⟩
      ordered := by
        rw [hfirsts]
        exact h.ordered.trans ((List.sublist_append_left _ _).map _) }

theorem step (h : Grouped fields indexes) (hstep : Absorbs indexes f next) :
    Grouped (fields ++ [f]) next := by
  cases hstep with
  | skips hf => exact h.skips hf
  | opens hf hnew => exact h.opens hf hnew
  | joins hf hsplit hname =>
    subst hsplit
    exact h.joins hf hname

theorem run (h : Grouped fields indexes) (rest : List Field) :
    Grouped (fields ++ rest) (rest.foldl absorb indexes) := by
  induction rest generalizing fields indexes with
  | nil => simpa using h
  | cons f rest ih =>
    rw [List.append_cons]
    exact ih (h.step (absorbs_absorb indexes f))

end Grouped

end Index

/-! ## The indexes of a table -/

namespace Table

variable {t : Table} {indexes indexes' : List Index}

/-- The fields whose columns an index has. -/
def members (t : Table) (ix : Index) : List Field := t.fields.filter (·.name ∈ ix.columns)

theorem mem_members_iff {ix : Index} {f : Field} :
    f ∈ t.members ix ↔ f ∈ t.fields ∧ f.name ∈ ix.columns := by
  simp [members]

/-- What the indexes of a table are. -/
structure IndexedBy (t : Table) (indexes : List Index) : Prop where
  /-- Together they have the columns of the indexed fields. -/
  placed : (indexes.flatMap (·.columns)).Perm ((t.fields.filter (·.index.isSome)).map (·.name))
  /-- No column is there twice, be it in one index or in two. -/
  once : (indexes.flatMap (·.columns)).Nodup
  /-- A field that does not name its index is alone in one without a name. -/
  alone : ∀ ix ∈ indexes, ∀ f ∈ t.members ix, f.indexMark.name = none →
    ix.name = none ∧ t.members ix = [f]
  /-- All fields that name the same index are in it. -/
  shared : ∀ ix ∈ indexes, ∀ f ∈ t.members ix, ∀ name, f.indexMark.name = some name →
    ix.name = some name ∧ t.members ix = t.fields.filter (·.isMarked name)
  /-- No two of them have the same name. -/
  apart : (indexes.filterMap (·.name)).Nodup
  /-- The columns of an index are those of its fields, in the order of declaration. -/
  declared : ∀ ix ∈ indexes, ix.columns = (t.members ix).map (·.name)
  /-- The first columns of the indexes are in the order of declaration. -/
  ordered : (indexes.map (·.columns.head?)).Sublist (t.fields.map (some ·.name))
  /-- An index is unique if the mark of one of its fields is. -/
  unique : ∀ ix ∈ indexes, ix.unique = true ↔ ∃ f ∈ t.members ix, f.indexMark.unique = true

/-- Two parts of a list without repetitions are the same if they have the same in them. -/
theorem eq_of_sublist {α : Type} {l part part' : List α} (hl : l.Nodup) (h : part.Sublist l)
    (h' : part'.Sublist l) (hmem : ∀ a, a ∈ part ↔ a ∈ part') : part = part' :=
  (hl.perm_iff_eq_of_sublist h h').1
    ((List.perm_ext_iff_of_nodup (h.nodup hl) (h'.nodup hl)).2 hmem)

/-- As no two fields have the same name, the fields of an index are its group. -/
theorem gathers_members (hnames : (t.fields.map (·.name)).Nodup)
    (h : Index.Grouped t.fields indexes) {ix : Index} (hix : ix ∈ indexes) :
    Index.Gathers t.fields ix (t.members ix) := by
  obtain ⟨group, hgroup⟩ := h.gathers ix hix
  have hmembers : t.members ix = group := by
    refine eq_of_sublist (hnames.of_map _) List.filter_sublist hgroup.sublist fun f => ?_
    rw [mem_members_iff, hgroup.columns, List.mem_map]
    constructor
    · rintro ⟨hf, g, hg, hname⟩
      rwa [← List.inj_on_of_nodup_map hnames (hgroup.sublist.mem hg) hf hname]
    · exact fun hf => ⟨hgroup.sublist.mem hf, f, hf, rfl⟩
  rwa [hmembers]

theorem grouped_indexes (t : Table) : Index.Grouped t.fields t.indexes := by
  simpa [indexes] using Index.Grouped.nil.run t.fields

theorem indexedBy_of_grouped (hnames : (t.fields.map (·.name)).Nodup)
    (h : Index.Grouped t.fields indexes) : t.IndexedBy indexes where
  placed := h.placed
  once := h.placed.nodup_iff.2 (hnames.sublist (List.filter_sublist.map _))
  alone _ hix _ hf hmark := (gathers_members hnames h hix).eq_singleton hf hmark
  shared _ hix _ hf _ hmark := (gathers_members hnames h hix).eq_filter hf hmark
  apart := h.apart
  declared _ hix := (gathers_members hnames h hix).columns
  ordered := h.ordered
  unique _ hix := (gathers_members hnames h hix).unique_iff

namespace IndexedBy

variable {ix ix' : Index} {f : Field}

/-- Indexes that have a field in common are the same, also where each is from a list of its own. -/
theorem eq_of_mem_members (h : t.IndexedBy indexes) (h' : t.IndexedBy indexes')
    (hix : ix ∈ indexes) (hix' : ix' ∈ indexes') (hf : f ∈ t.members ix)
    (hf' : f ∈ t.members ix') : ix = ix' := by
  have hsame : ix.name = ix'.name ∧ t.members ix = t.members ix' := by
    cases hmark : f.indexMark.name with
    | none =>
      obtain ⟨hname, hmembers⟩ := h.alone ix hix f hf hmark
      obtain ⟨hname', hmembers'⟩ := h'.alone ix' hix' f hf' hmark
      exact ⟨hname.trans hname'.symm, hmembers.trans hmembers'.symm⟩
    | some name =>
      obtain ⟨hname, hmembers⟩ := h.shared ix hix f hf name hmark
      obtain ⟨hname', hmembers'⟩ := h'.shared ix' hix' f hf' name hmark
      exact ⟨hname.trans hname'.symm, hmembers.trans hmembers'.symm⟩
  have hcolumns : ix.columns = ix'.columns := by
    rw [h.declared ix hix, h'.declared ix' hix', hsame.2]
  have hunique : ix.unique = ix'.unique := by
    rw [Bool.eq_iff_iff, h.unique ix hix, h'.unique ix' hix', hsame.2]
  obtain ⟨name, columns, unique⟩ := ix
  obtain ⟨name', columns', unique'⟩ := ix'
  rw [Index.mk.injEq]
  exact ⟨hsame.1, hcolumns, hunique⟩

theorem exists_first (h : t.IndexedBy indexes) (hix : ix ∈ indexes) :
    ∃ f ∈ t.members ix, ix.columns.head? = some f.name := by
  obtain ⟨f, hf, hfirst⟩ := Index.exists_first h.ordered hix
  exact ⟨f, mem_members_iff.2 ⟨hf, List.mem_of_mem_head? hfirst⟩, hfirst⟩

theorem subset (h : t.IndexedBy indexes) (h' : t.IndexedBy indexes') : indexes ⊆ indexes' := by
  intro ix hix
  obtain ⟨f, hf, -⟩ := h.exists_first hix
  obtain ⟨hfield, hcolumn⟩ := mem_members_iff.1 hf
  have hplaced : f.name ∈ indexes'.flatMap (·.columns) :=
    (h.placed.trans h'.placed.symm).subset (List.mem_flatMap.2 ⟨ix, hix, hcolumn⟩)
  obtain ⟨ix', hix', hcolumn'⟩ := List.mem_flatMap.1 hplaced
  rwa [h.eq_of_mem_members h' hix hix' hf (mem_members_iff.2 ⟨hfield, hcolumn'⟩)]

theorem eq (hnames : (t.fields.map (·.name)).Nodup) (h : t.IndexedBy indexes)
    (h' : t.IndexedBy indexes') : indexes = indexes' := by
  -- Both lists have the same indexes. Their first columns say in which order, and no two indexes
  -- begin with the same column.
  have hfirsts : indexes.map (·.columns.head?) = indexes'.map (·.columns.head?) := by
    have hnodup := hnames.map (f := some) fun _ _ => Option.some.inj
    rw [List.map_map] at hnodup
    refine eq_of_sublist hnodup h.ordered h'.ordered fun first => ?_
    exact ⟨fun hfirst => List.map_subset _ (h.subset h') hfirst,
      fun hfirst => List.map_subset _ (h'.subset h) hfirst⟩
  have hlength : indexes.length = indexes'.length := by simpa using congrArg List.length hfirsts
  refine List.ext_getElem hlength fun i hi hi' => ?_
  obtain ⟨f, hf, hfirst⟩ := h.exists_first (List.getElem_mem hi)
  have hfirst' : indexes'[i].columns.head? = some f.name := by
    rw [← hfirst]
    simpa [hi, hi'] using (congrArg (·[i]?) hfirsts).symm
  refine h.eq_of_mem_members h' (List.getElem_mem hi) (List.getElem_mem hi') hf ?_
  exact mem_members_iff.2 ⟨(mem_members_iff.1 hf).1, List.mem_of_mem_head? hfirst'⟩

end IndexedBy

/-- **A table's indexes are the groups of its fields.** Each indexed field is in one index, once
there, and no other field is in any. A field that does not name its index is alone in it, fields
that name the same one share it, and no two indexes have one name. Columns are in the order of
declaration, indexes in that of their first columns, and an index is unique if one of its fields is
marked so. No other indexes are like that. -/
theorem indexes_partition {d : Description} (h : d.build = .ok t) :
    t.IndexedBy t.indexes ∧ ∀ indexes, t.IndexedBy indexes → indexes = t.indexes := by
  obtain ⟨⟨hnames, -⟩, -, rfl⟩ := (d.build_eq_ok_iff t).1 h
  let t : Table := ⟨d.entity, d.name, d.columns⟩
  have hindexes : t.IndexedBy t.indexes := indexedBy_of_grouped hnames (grouped_indexes t)
  exact ⟨hindexes, fun indexes h => h.eq hnames hindexes⟩

/-- Fields of named indexes and unnamed ones by turns. The second field of `IX_Name` makes it unique
when another index stands after it already, and an ignored field adds nothing to it. -/
theorem indexes_partition_interleaved :
    let d : Description :=
      { entity := "Person"
        fields :=
          [ { name := "Id", ty := .long, primaryKey := true, identity := some {} },
            Field.indexedAs "IX_Name" { name := "First", ty := .string },
            Field.asUnique { name := "Email", ty := .string },
            (Field.indexedAs "IX_Name" { name := "Last", ty := .string }).asUnique,
            Field.indexedAs "IX_Place" { name := "Zip", ty := .string },
            (Field.indexedAs "IX_Name" { name := "Cached", ty := .string }).ignored,
            Field.indexed { name := "Born", ty := .dateTime },
            Field.indexedAs "IX_Place" { name := "City", ty := .string },
            Field.indexedAs "IX_Name" { name := "Middle", ty := .string } ] }
    ∃ t, d.build = .ok t ∧
      t.indexes =
        [ ⟨some "IX_Name", ["First", "Last", "Middle"], true⟩, ⟨none, ["Email"], true⟩,
          ⟨some "IX_Place", ["Zip", "City"], false⟩, ⟨none, ["Born"], false⟩ ] ∧
      t.IndexedBy t.indexes ∧ ∀ indexes, t.IndexedBy indexes → indexes = t.indexes := by
  intro d
  have hb : d.build = .ok ⟨"Person", "Person", d.columns⟩ := rfl
  exact ⟨_, hb, rfl, indexes_partition hb⟩

end Table

end SqlCompose
