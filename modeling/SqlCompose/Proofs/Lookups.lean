/-
Look-ups over time.

Entities may describe themselves otherwise at any time, and between such changes a cache is asked
for their tables. A `Catalog` is both together, and what happens to it is a list of events. What
the cache has for an entity is what look-ups found first (`Catalog.get?_run`), so an answer can be
told from the history of the entity alone (`Catalog.answer_run`).
-/
import Mathlib.Data.Finset.Card
import Mathlib.Logic.Function.Basic
import SqlCompose.Schema.Cache

namespace SqlCompose

/-! ## Single look-ups -/

namespace Cache

variable {κ : Type} [DecidableEq κ]

/-- A look-up answers from the cache, takes in a new table, or fails and changes nothing. -/
theorem table_cases (describe : κ → Description) (k : κ) (c : Cache κ) :
    (∃ t, c.get? k = some t ∧ c.table describe k = (.ok t, c)) ∨
    (∃ t, c.get? k = none ∧ (describe k).build = .ok t ∧
      c.table describe k = (.ok t, ⟨c.entries ++ [(k, t)]⟩)) ∨
    ∃ err, c.get? k = none ∧ (describe k).build = .error err ∧
      c.table describe k = (.error err, c) := by
  cases hk : c.get? k with
  | some t => exact .inl ⟨t, rfl, by rw [table, hk]⟩
  | none =>
    cases hb : (describe k).build with
    | ok t => exact .inr (.inl ⟨t, rfl, rfl, by simp only [table, hk, hb]⟩)
    | error err => exact .inr (.inr ⟨err, rfl, rfl, by simp only [table, hk, hb]⟩)

theorem isSome_get?_iff (c : Cache κ) (k : κ) : (c.get? k).isSome ↔ k ∈ c.entries.map (·.1) := by
  rw [get?, List.lookup_isSome_iff]
  simp

end Cache

/-! ## Events -/

/-- What happens to entities and their cache. -/
inductive CatalogEvent (κ : Type) where
  | lookUp (k : κ)
  /-- The entity describes itself so from now on. -/
  | redefine (k : κ) (d : Description)

def CatalogEvent.entity {κ : Type} : CatalogEvent κ → κ
  | lookUp k => k
  | redefine k _ => k

/-- Entities as they describe themselves, and the cache of their tables. -/
structure Catalog (κ : Type) where
  describe : κ → Description
  cache : Cache κ := {}

namespace Catalog

variable {κ : Type} [DecidableEq κ]

def answer (c : Catalog κ) (k : κ) : Except Error Table := (c.cache.table c.describe k).1

def step (c : Catalog κ) : CatalogEvent κ → Catalog κ
  | .lookUp k => { c with cache := (c.cache.table c.describe k).2 }
  | .redefine k d => { c with describe := Function.update c.describe k d }

@[simp] theorem describe_redefine (c : Catalog κ) (k : κ) (d : Description) :
    (c.step (.redefine k d)).describe = Function.update c.describe k d := rfl

@[simp] theorem cache_redefine (c : Catalog κ) (k : κ) (d : Description) :
    (c.step (.redefine k d)).cache = c.cache := rfl

def run (c : Catalog κ) (events : List (CatalogEvent κ)) : Catalog κ := events.foldl step c

/-- The table that an event finds, with its entity; only look-ups find one. -/
def finds (c : Catalog κ) : CatalogEvent κ → List (κ × Table)
  | .lookUp k =>
    match c.answer k with
    | .ok t => [(k, t)]
    | .error _ => []
  | .redefine _ _ => []

/-- The tables that a run finds, each time one is found. -/
def found (c : Catalog κ) : List (CatalogEvent κ) → List (κ × Table)
  | [] => []
  | e :: events => c.finds e ++ (c.step e).found events

theorem answer_eq (c : Catalog κ) (k : κ) :
    c.answer k = match c.cache.get? k with
      | some t => .ok t
      | none => (c.describe k).build := by
  rw [answer]
  obtain ⟨t, hk, ht⟩ | ⟨t, hk, hb, ht⟩ | ⟨err, hk, hb, ht⟩ := c.cache.table_cases c.describe k
  · rw [hk, ht]
  · rw [hk, ht, hb]
  · rw [hk, ht, hb]

theorem step_lookUp_of_error {c : Catalog κ} {k : κ} {err : Error} (h : c.answer k = .error err) :
    c.step (.lookUp k) = c := by
  rw [answer] at h
  rw [step]
  obtain ⟨t, -, ht⟩ | ⟨t, -, -, ht⟩ | ⟨_, -, -, ht⟩ := c.cache.table_cases c.describe k
  · rw [ht] at h
    cases h
  · rw [ht] at h
    cases h
  · rw [ht]

theorem lookup_finds_of_ne (c : Catalog κ) {e : CatalogEvent κ} {k : κ} (he : e.entity ≠ k) :
    (c.finds e).lookup k = none := by
  cases e with
  | redefine j d => rfl
  | lookUp j =>
    have hbeq : (k == j) = false := beq_false_of_ne (Ne.symm he)
    rw [finds]
    split
    · rw [List.lookup_cons, hbeq]
      rfl
    · rfl

/-- An event adds to the cache what it finds, and never in place of anything. -/
theorem get?_step (c : Catalog κ) (e : CatalogEvent κ) (k : κ) :
    (c.step e).cache.get? k = (c.cache.get? k).or ((c.finds e).lookup k) := by
  cases e with
  | redefine j d => exact (Option.or_none).symm
  | lookUp j =>
    obtain ⟨t, hj, ht⟩ | ⟨t, -, -, ht⟩ | ⟨err, -, -, ht⟩ := c.cache.table_cases c.describe j
    · rw [step, ht]
      -- The entity has its table already, so that finding it again adds nothing.
      by_cases hjk : j = k
      · rw [← hjk, hj]
        rfl
      · rw [lookup_finds_of_ne c (e := .lookUp j) hjk, Option.or_none]
    · rw [step, finds, answer, ht]
      exact List.lookup_append
    · rw [step, finds, answer, ht]
      exact (Option.or_none).symm

/-- The cache has the tables that were found first. -/
theorem get?_run (c : Catalog κ) (events : List (CatalogEvent κ)) (k : κ) :
    (c.run events).cache.get? k = (c.cache.get? k).or ((c.found events).lookup k) := by
  induction events generalizing c with
  | nil => exact (Option.or_none).symm
  | cons e events ih =>
    calc ((c.step e).run events).cache.get? k
      _ = ((c.step e).cache.get? k).or (((c.step e).found events).lookup k) := ih (c.step e)
      _ = (c.cache.get? k).or (((c.finds e).lookup k).or (((c.step e).found events).lookup k)) := by
        rw [get?_step, Option.or_assoc]
      _ = (c.cache.get? k).or ((c.found (e :: events)).lookup k) := by
        rw [found, List.lookup_append]

/-! ## The size of the cache -/

theorem nodup_step {c : Catalog κ} (h : (c.cache.entries.map (·.1)).Nodup) (e : CatalogEvent κ) :
    ((c.step e).cache.entries.map (·.1)).Nodup := by
  cases e with
  | redefine k d => exact h
  | lookUp k =>
    rw [step]
    obtain ⟨t, -, ht⟩ | ⟨t, hk, -, ht⟩ | ⟨err, -, -, ht⟩ := c.cache.table_cases c.describe k
    · rw [ht]
      exact h
    · have hnew : k ∉ c.cache.entries.map (·.1) := by
        rw [← Cache.isSome_get?_iff, hk]
        exact Bool.false_ne_true
      rw [ht, List.map_append]
      exact List.concat_eq_append ▸ h.concat hnew
    · rw [ht]
      exact h

theorem nodup_run {c : Catalog κ} (h : (c.cache.entries.map (·.1)).Nodup)
    (events : List (CatalogEvent κ)) : ((c.run events).cache.entries.map (·.1)).Nodup := by
  induction events generalizing c with
  | nil => exact h
  | cons e events ih => exact ih (nodup_step h e)

theorem size_run (describe : κ → Description) (events : List (CatalogEvent κ)) :
    (run { describe := describe } events).cache.size =
      ((found { describe := describe } events).map (·.1)).toFinset.card := by
  have hnodup := nodup_run (c := { describe := describe }) List.nodup_nil events
  have hkeys : ((run { describe := describe } events).cache.entries.map (·.1)).toFinset =
      ((found { describe := describe } events).map (·.1)).toFinset := by
    ext k
    rw [List.mem_toFinset, List.mem_toFinset, ← Cache.isSome_get?_iff, get?_run]
    exact Cache.isSome_get?_iff ⟨found { describe := describe } events⟩ k
  rw [← hkeys, List.toFinset_card_of_nodup hnodup, List.length_map]
  rfl

/-! ## Other entities -/

/-- Two catalogs that are alike as far as one entity goes. -/
def AlikeFor (k : κ) (c c' : Catalog κ) : Prop :=
  c.describe k = c'.describe k ∧ c.cache.get? k = c'.cache.get? k

theorem AlikeFor.answer {k : κ} {c c' : Catalog κ} (h : AlikeFor k c c') :
    c.answer k = c'.answer k := by
  rw [answer_eq, answer_eq, h.1, h.2]

/-- An event about another entity changes nothing for this one. -/
theorem alikeFor_step {k : κ} (c : Catalog κ) {e : CatalogEvent κ} (he : e.entity ≠ k) :
    AlikeFor k (c.step e) c := by
  cases e with
  | redefine j d =>
    refine ⟨?_, rfl⟩
    have hkj : k ≠ j := Ne.symm he
    rw [describe_redefine, Function.update_of_ne hkj]
  | lookUp j =>
    refine ⟨rfl, ?_⟩
    rw [get?_step, lookup_finds_of_ne c he, Option.or_none]

theorem AlikeFor.step {k : κ} {c c' : Catalog κ} (h : AlikeFor k c c') {e : CatalogEvent κ}
    (he : e.entity = k) : AlikeFor k (c.step e) (c'.step e) := by
  cases e with
  | redefine j d =>
    obtain rfl : j = k := he
    refine ⟨?_, h.2⟩
    rw [describe_redefine, describe_redefine, Function.update_self, Function.update_self]
  | lookUp j =>
    obtain rfl : j = k := he
    refine ⟨h.1, ?_⟩
    rw [get?_step, get?_step, finds, finds, h.answer, h.2]

/-- The events about an entity are all that matters to it. -/
theorem AlikeFor.run {k : κ} {c c' : Catalog κ} (h : AlikeFor k c c')
    (events : List (CatalogEvent κ)) :
    AlikeFor k (c.run events) (c'.run (events.filter fun e => e.entity = k)) := by
  induction events generalizing c c' with
  | nil => exact h
  | cons e events ih =>
    by_cases he : e.entity = k
    · rw [List.filter_cons_of_pos (by simpa using he)]
      exact ih (h.step he)
    · rw [List.filter_cons_of_neg (by simpa using he)]
      have hskip := c.alikeFor_step he
      exact ih ⟨hskip.1.trans h.1, hskip.2.trans h.2⟩

/-! ## Answers -/

/-- **A look-up answers what was found first**, or what the present description builds if nothing
was found yet. One that fails changes nothing, so the entity may still mend its description. Other
entities have no part in it, and the cache has one table for each entity that had one found. -/
theorem answer_run (describe : κ → Description) (events : List (CatalogEvent κ)) (k : κ) :
    let c := run { describe := describe } events
    let tables := found { describe := describe } events
    (c.answer k = match tables.lookup k with
      | some t => .ok t
      | none => (c.describe k).build) ∧
    (∀ err, c.answer k = .error err → c.step (.lookUp k) = c ∧
      ∀ d t, d.build = .ok t → (c.run [.lookUp k, .redefine k d]).answer k = .ok t) ∧
    (run { describe := describe } (events.filter fun e => e.entity = k)).answer k = c.answer k ∧
    c.cache.size = (tables.map (·.1)).toFinset.card := by
  intro c tables
  have hget : c.cache.get? k = tables.lookup k := get?_run _ events k
  refine ⟨?_, fun err herr => ?_, ?_, size_run describe events⟩
  · rw [answer_eq, hget]
  · have hsame := step_lookUp_of_error herr
    refine ⟨hsame, fun d t hd => ?_⟩
    have hnone : c.cache.get? k = none := by
      rw [answer_eq] at herr
      split at herr
      · cases herr
      · next hnone => exact hnone
    rw [run, List.foldl_cons, List.foldl_cons, List.foldl_nil, hsame, answer_eq]
    simp [hnone, hd]
  · exact (AlikeFor.run ⟨rfl, rfl⟩ events).answer.symm

/-- A description that does not build, one that does, and one that comes too late. -/
theorem answer_run_mended :
    let bad : Description :=
      { entity := "Tag", fields := [{ name := "Code", ty := .string, identity := some {} }] }
    let good : Description := { entity := "Tag", fields := [{ name := "Code", ty := .string }] }
    let late : Description := { entity := "Tag", fields := [{ name := "Id", ty := .long }] }
    let start : Catalog Bool := { describe := fun _ => bad }
    let c := start.run [.lookUp true, .redefine false good, .lookUp false]
    (∃ err, c.answer true = .error err) ∧ good.build = .ok ⟨"Tag", "Tag", good.fields⟩ ∧
    (c.run [.lookUp true, .redefine true good]).answer true = .ok ⟨"Tag", "Tag", good.fields⟩ ∧
    (c.run [.redefine false late]).answer false = .ok ⟨"Tag", "Tag", good.fields⟩ ∧
    c.cache.size = 1 := by
  intro bad good late start c
  have hbad : c.answer true = .error (.invalidSchema (.identityNotIntegral "Tag" "Code" .string)) :=
    rfl
  have hgood : good.build = .ok ⟨"Tag", "Tag", good.fields⟩ := rfl
  have h := answer_run start.describe [.lookUp true, .redefine false good, .lookUp false] true
  exact ⟨⟨_, hbad⟩, hgood, (h.2.1 _ hbad).2 good _ hgood, rfl, rfl⟩

end Catalog

end SqlCompose
