/-
Steps of different clauses can be done in any order.

Clauses are written apart, but their values are numbered through in the order of the
steps. So another order of the steps that keeps the order inside each clause gives the
same statement, with other names for the same values: `Edit.Renumbers` says how the
numbers move. It is found by taking the edits of the first order one after the other out
of the second; the values of an edit move over those of the edits it passes
(`Edit.Renumbers.cons`).
-/
import Mathlib.Data.Set.Function
import Mathlib.Order.Interval.Set.Basic
import SqlCompose.Proofs.Contributions

namespace SqlCompose

/-! ## Numbers that move -/

/-- The first `k` numbers go behind the first `m` others, and the others move as `f` says. -/
def passing (k m : Nat) (f : Nat → Nat) (i : Nat) : Nat :=
  if i < k then m + i else if f (i - k) < m then f (i - k) else f (i - k) + k

theorem passing_of_lt {k m i : Nat} (f : Nat → Nat) (h : i < k) : passing k m f i = m + i :=
  if_pos h

theorem passing_add (k m : Nat) (f : Nat → Nat) (i : Nat) :
    passing k m f (k + i) = if f i < m then f i else f i + k := by
  rw [passing, if_neg (by omega), Nat.add_sub_cancel_left]

theorem bijOn_passing {k m n l : Nat} {f : Nat → Nat}
    (hf : Set.BijOn f (Set.Iio n) (Set.Iio (m + l))) :
    Set.BijOn (passing k m f) (Set.Iio (k + n)) (Set.Iio (m + (k + l))) := by
  have hcases {i : Nat} (hi : i < k + n) : i < k ∨ ∃ j < n, i = k + j := by
    by_cases h : i < k
    · exact .inl h
    · exact .inr ⟨i - k, by omega, by omega⟩
  refine ⟨fun i hi => ?_, fun i hi i' hi' h => ?_, fun j hj => ?_⟩
  · rcases hcases hi with hk | ⟨i, hn, rfl⟩
    · rw [passing_of_lt f hk, Set.mem_Iio]
      omega
    · have := hf.mapsTo hn
      rw [passing_add]
      rw [Set.mem_Iio] at this ⊢
      split <;> omega
  · rcases hcases hi with hk | ⟨i, hn, rfl⟩ <;> rcases hcases hi' with hk' | ⟨i', hn', rfl⟩
    · rw [passing_of_lt f hk, passing_of_lt f hk'] at h
      omega
    · rw [passing_of_lt f hk, passing_add] at h
      split at h <;> omega
    · rw [passing_of_lt f hk', passing_add] at h
      split at h <;> omega
    · rw [passing_add, passing_add] at h
      have heq : f i = f i' := by
        split at h <;> split at h <;> omega
      rw [hf.injOn hn hn' heq]
  · rw [Set.mem_Iio] at hj
    by_cases hk : m ≤ j ∧ j < m + k
    · refine ⟨j - m, ?_, ?_⟩
      · rw [Set.mem_Iio]
        omega
      · rw [passing_of_lt f (by omega)]
        omega
    · -- The others are hit by `f`, with the gap of `k` numbers closed.
      have hgap : (if j < m then j else j - k) ∈ Set.Iio (m + l) := by
        rw [Set.mem_Iio]
        split <;> omega
      obtain ⟨i, hi, hfi⟩ := hf.surjOn hgap
      refine ⟨k + i, Nat.add_lt_add_left hi k, ?_⟩
      rw [passing_add, hfi]
      by_cases hjm : j < m
      · rw [if_pos hjm, if_pos hjm]
      · rw [if_neg hjm, if_neg (by omega)]
        omega

/-! ## Edits in another order -/

namespace Edit

/-- The value number `i` of the first edits is number `f i` of the others, and with the names
moved so, each clause gets the same texts. -/
structure Renumbers (f : Nat → Nat) (edits edits' : List (Edit Passage)) : Prop where
  bijOn : Set.BijOn f (Set.Iio (bound edits).length) (Set.Iio (bound edits').length)
  values : ∀ i < (bound edits).length, (bound edits')[f i]? = (bound edits)[i]?
  drawn : ∀ (name : Nat → String) (b : Buffer),
    (drawn (fun i => name (f i)) edits).filter (·.buffer? = some b) =
      (drawn name edits').filter (·.buffer? = some b)

theorem filter_drawn_eq_nil {edits : List (Edit Passage)} {b : Buffer}
    (h : ∀ e ∈ edits, e.buffer? ≠ some b) (name : Nat → String) :
    (drawn name edits).filter (·.buffer? = some b) = [] := by
  rw [List.filter_eq_nil_iff]
  intro e he
  obtain ⟨e', he', name', rfl⟩ := exists_of_mem_drawn he
  simpa using h e' he'

namespace Renumbers

variable {f : Nat → Nat} {e : Edit Passage} {edits before after : List (Edit Passage)}

theorem nil (h : ∀ e ∈ edits, e.buffer? = none) : Renumbers id [] edits := by
  have hbound : bound edits = [] := List.flatMap_eq_nil_iff.2 fun e he => values_of_flag (h e he)
  refine ⟨?_, fun i hi => absurd hi (Nat.not_lt_zero i), fun name b => ?_⟩
  · rw [hbound]
    exact Set.bijOn_id _
  · exact (filter_drawn_eq_nil (fun e he => by simp [h e he]) name).symm

theorem cons_flag (he : e.buffer? = none) (hf : Renumbers f before after) :
    Renumbers f (e :: before) after := by
  have hvalues := values_of_flag he
  have hbound : bound (e :: before) = bound before := by rw [bound_cons, hvalues, List.nil_append]
  refine ⟨hbound ▸ hf.bijOn, hbound ▸ hf.values, fun name b => ?_⟩
  rw [Edit.drawn, List.filter_cons_of_neg (by simp [he]), hvalues, ← hf.drawn]
  simp

/-- An edit of a clause can pass the edits of other clauses. -/
theorem cons {b : Buffer} (he : e.buffer? = some b) (hbefore : ∀ e' ∈ before, e'.buffer? ≠ some b)
    (hf : Renumbers f edits (before ++ after)) :
    Renumbers (passing e.values.length (bound before).length f) (e :: edits)
      (before ++ e :: after) := by
  have hbij := hf.bijOn
  have hvalues := hf.values
  rw [bound_append, List.length_append] at hbij
  rw [bound_append] at hvalues
  refine ⟨?_, fun i hi => ?_, fun name b' => ?_⟩
  · simpa only [bound_cons, bound_append, List.length_append] using bijOn_passing hbij
  · rw [bound_cons, List.length_append] at hi
    rw [bound_cons, bound_append, bound_cons]
    by_cases hk : i < e.values.length
    · rw [passing_of_lt f hk, List.getElem?_append_left hk, List.getElem?_append_right (by omega),
        Nat.add_sub_cancel_left, List.getElem?_append_left hk]
    · obtain ⟨j, rfl⟩ := Nat.exists_eq_add_of_le (Nat.le_of_not_lt hk)
      have hright : (e.values ++ bound edits)[e.values.length + j]? = (bound edits)[j]? := by
        rw [List.getElem?_append_right (by omega), Nat.add_sub_cancel_left]
      rw [hright, ← hvalues j (by omega), passing_add]
      by_cases hj : f j < (bound before).length
      · rw [if_pos hj, List.getElem?_append_left hj, List.getElem?_append_left hj]
      · rw [if_neg hj, List.getElem?_append_right (by omega), List.getElem?_append_right (by omega),
          List.getElem?_append_right (by omega)]
        congr 1
        omega
  · -- The names of the other edits, without those of `e`.
    let others : Nat → String := fun j =>
      name (if j < (bound before).length then j else j + e.values.length)
    have hhead : e.named (fun i => name (passing e.values.length (bound before).length f i)) =
        e.named fun i => name ((bound before).length + i) :=
      named_congr fun i hi => by rw [passing_of_lt f hi]
    have hrest := hf.drawn others b'
    have hfront : Edit.drawn others before = Edit.drawn name before :=
      drawn_congr fun i hi => by simp only [others, if_pos hi]
    have hback : (fun i => others ((bound before).length + i)) = fun i =>
        name ((bound before).length + (e.values.length + i)) := by
      funext i
      simp only [others]
      rw [if_neg (by omega)]
      congr 1
      omega
    rw [drawn_append, List.filter_append, hfront, hback] at hrest
    rw [Edit.drawn, hhead, drawn_append, List.filter_append, Edit.drawn]
    simp only [passing_add]
    by_cases hb : e.buffer? = some b'
    · have hb' : b = b' := Option.some.inj (he.symm.trans hb)
      subst hb'
      rw [filter_drawn_eq_nil hbefore, List.nil_append] at hrest ⊢
      rw [List.filter_cons_of_pos (by simpa using hb), List.filter_cons_of_pos (by simpa using hb)]
      exact congrArg _ hrest
    · rw [List.filter_cons_of_neg (by simpa using hb), List.filter_cons_of_neg (by simpa using hb)]
      exact hrest

end Renumbers

/-- **Edits of different clauses pass each other.** -/
theorem exists_renumbers {edits edits' : List (Edit Passage)}
    (h : ∀ b, edits.filter (·.buffer? = some b) = edits'.filter (·.buffer? = some b)) :
    ∃ f, Renumbers f edits edits' := by
  induction edits generalizing edits' with
  | nil =>
    refine ⟨id, .nil fun e he => Option.eq_none_iff_forall_ne_some.2 fun b hb => ?_⟩
    have := List.filter_eq_nil_iff.1 (h b).symm e he
    simp [hb] at this
  | cons e edits ih =>
    cases hb : e.buffer? with
    | none =>
      obtain ⟨f, hf⟩ := ih fun b => by
        rw [← h b, List.filter_cons_of_neg (by simp [hb])]
      exact ⟨f, hf.cons_flag hb⟩
    | some b =>
      have hfirst := (h b).symm
      rw [List.filter_cons_of_pos (by simpa using hb)] at hfirst
      obtain ⟨before, after, rfl, hbefore, -, -⟩ := List.filter_eq_cons_iff.1 hfirst
      have hbefore : ∀ e' ∈ before, e'.buffer? ≠ some b := fun e' he' => by
        simpa using hbefore e' he'
      -- Without `e`, what is left of both has the same edits for each clause.
      have hrest (b' : Buffer) : edits.filter (·.buffer? = some b') =
          (before ++ after).filter (·.buffer? = some b') := by
        have hb' := h b'
        rw [List.filter_append] at hb' ⊢
        by_cases hbb : b' = b
        · subst hbb
          have hnone : before.filter (·.buffer? = some b') = [] := by
            simpa [List.filter_eq_nil_iff] using hbefore
          rw [hnone, List.filter_cons_of_pos (by simpa using hb),
            List.filter_cons_of_pos (by simpa using hb)] at hb'
          rw [hnone]
          exact (List.cons.inj hb').2
        · have hne : ¬ e.buffer? = some b' := by rw [hb]; simpa using Ne.symm hbb
          rwa [List.filter_cons_of_neg (by simpa using hne),
            List.filter_cons_of_neg (by simpa using hne)] at hb'
      obtain ⟨f, hf⟩ := ih hrest
      exact ⟨_, hf.cons hb hbefore⟩

end Edit

/-! ## Names that move -/

namespace Parameters

/-- Names of a table, moved as their numbers are. Other texts stay. -/
noncomputable def rename (tag : String) (f : Nat → Nat) : String → String :=
  Function.extend (key tag) (fun i => key tag (f i)) id

theorem rename_key (tag : String) (f : Nat → Nat) (i : Nat) :
    rename tag f (key tag i) = key tag (f i) :=
  Function.Injective.extend_apply (fun _ _ => key_inj) _ _ i

theorem mem_keys_extend_iff {tag name : String} {vs : List Value} :
    name ∈ (extend { tag := tag } vs).keys ↔ ∃ i < vs.length, key tag i = name := by
  rw [keys_extend]
  simp

theorem bijOn_rename {tag : String} {f : Nat → Nat} {vs ws : List Value}
    (hf : Set.BijOn f (Set.Iio vs.length) (Set.Iio ws.length)) :
    Set.BijOn (rename tag f) { name | name ∈ (extend { tag := tag } vs).keys }
      { name | name ∈ (extend { tag := tag } ws).keys } := by
  simp only [mem_keys_extend_iff]
  refine ⟨?_, ?_, ?_⟩
  · rintro _ ⟨i, hi, rfl⟩
    exact ⟨f i, hf.mapsTo hi, (rename_key tag f i).symm⟩
  · rintro _ ⟨i, hi, rfl⟩ _ ⟨j, hj, rfl⟩ h
    rw [rename_key, rename_key] at h
    rw [hf.injOn hi hj (key_inj h)]
  · rintro _ ⟨j, hj, rfl⟩
    obtain ⟨i, hi, rfl⟩ := hf.surjOn hj
    exact ⟨_, ⟨i, hi, rfl⟩, rename_key tag f i⟩

end Parameters

/-! ## Runs in another order -/

/-- Two orders of the same steps, in which the steps of each clause come in the same order. Flags
can be set any number of times. -/
structure Interleaved {κ : Type} (steps steps' : List (Step κ)) : Prop where
  unsettled : ∀ st ∈ steps ++ steps', st.closes = false
  clauses : ∀ b, steps.filter (·.buffer? = some b) = steps'.filter (·.buffer? = some b)
  count : .count ∈ steps ↔ .count ∈ steps'
  distinct : .distinct ∈ steps ↔ .distinct ∈ steps'

namespace Session

variable {κ : Type} [DecidableEq κ] (describe : κ → Description)

/-- The session with other parameters. -/
def withParams (s : Session κ) (p : Parameters) : Session κ :=
  { s with query := { s.query with params := p } }

/-- What a run builds and binds, whatever the parameters it starts with. -/
theorem run_withParams {s₀ : Session κ} (hsql : s₀.query.sql = none) {g : Step κ → Edit Passage}
    {steps : List (Step κ)} (hg : ∀ st ∈ steps, s₀.Contributes describe st (g st))
    (hdone : s₀.succeeds describe steps = true) (p : Parameters) :
    let q := ((s₀.withParams p).run describe steps).query
    let clauses := s₀.query.clauses.edit (Edit.drawn p.upcoming.name (steps.map g))
    q.build.1 = { s₀.query with clauses := clauses }.build.1 ∧
      q.params = p.extend (Edit.bound (steps.map g)) := by
  intro q clauses
  have hakin (p : Parameters) : (s₀.withParams p).Akin describe s₀ := ⟨rfl, rfl, fun _ => rfl⟩
  have hq : q = _ := query_run describe hg (hakin s₀.query.params) (hakin p) rfl rfl hdone
  rw [hq]
  refine ⟨?_, rfl⟩
  simp only [withParams, Query.build, hsql, Query.withColumns, clauses]

/-- The edits of interleaved steps make the same clauses, with the names moved. -/
theorem exists_renumbering {s₀ : Session κ} {steps steps' : List (Step κ)}
    (hi : Interleaved steps steps') {g : Step κ → Edit Passage}
    (hg : ∀ st ∈ steps ++ steps', s₀.Contributes describe st (g st)) :
    ∃ f, Edit.Renumbers f (steps.map g) (steps'.map g) ∧ ∀ (name : Nat → String) (c : Clauses),
      c.edit (Edit.drawn name (steps'.map g)) =
        c.edit (Edit.drawn (fun i => name (f i)) (steps.map g)) := by
  obtain ⟨hsteps, hsteps'⟩ := List.forall_mem_append.1 hg
  have hfilter {steps : List (Step κ)} (h : ∀ st ∈ steps, s₀.Contributes describe st (g st))
      (b : Buffer) : (steps.map g).filter (·.buffer? = some b) =
        (steps.filter (·.buffer? = some b)).map g := by
    rw [List.filter_map]
    congr 1
    exact List.filter_congr fun st hst => by simp [(h st hst).buffer]
  have hflag {x : Edit String} {y : Edit Passage} {flag : Step κ}
      (hx : ∀ (e : Edit Passage) (name : Nat → String), e.named name = x ↔ e = y)
      {steps : List (Step κ)} (hy : ∀ st ∈ steps, g st = y ↔ st = flag) (name : Nat → String) :
      x ∈ Edit.drawn name (steps.map g) ↔ flag ∈ steps := by
    rw [Edit.mem_drawn_iff hx, List.mem_map]
    exact ⟨fun ⟨st, hst, he⟩ => (hy st hst).1 he ▸ hst, fun hst => ⟨_, hst, (hy _ hst).2 rfl⟩⟩
  have hedits (b : Buffer) : (steps.map g).filter (·.buffer? = some b) =
      (steps'.map g).filter (·.buffer? = some b) := by
    rw [hfilter hsteps, hfilter hsteps', hi.clauses]
  obtain ⟨f, hf⟩ := Edit.exists_renumbers hedits
  refine ⟨f, hf, fun name c => Clauses.edit_congr (fun b => (hf.drawn name b).symm) ?_ ?_ c⟩
  · rw [hflag Edit.named_eq_count fun st hst => (hsteps st hst).count,
      hflag Edit.named_eq_count fun st hst => (hsteps' st hst).count, hi.count]
  · rw [hflag Edit.named_eq_distinct fun st hst => (hsteps st hst).distinct,
      hflag Edit.named_eq_distinct fun st hst => (hsteps' st hst).distinct, hi.distinct]

/-- **The order of steps matters inside a clause only.** If two runs of steps are done that differ
in the order of steps of different clauses, there are the template of the first statement, whose
holes are filled with the next names wherever the numbers start, and a bijection of the names in the
two tables that keeps the values, and the second statement is the template with the names moved. If
nothing was bound, the statements are the same. -/
theorem run_interleaved {target : Target} {k : κ} {cache : Cache κ} {s₀ : Session κ}
    (h : start describe target k cache = .ok s₀) {steps steps' : List (Step κ)}
    (hi : Interleaved steps steps') (hdone : s₀.succeeds describe steps = true)
    (hdone' : s₀.succeeds describe steps' = true) :
    let q := (s₀.run describe steps).query
    let q' := (s₀.run describe steps').query
    let key := Parameters.key target.dialect.parameterTag
    ∃ (T : Template) (rename : String → String),
      (∀ p, ((s₀.withParams p).run describe steps).query.build.1 = T.fill p.tag p.size) ∧
      (∀ i ∈ T.holes, i < q.params.size) ∧
      q.build.1 = T.spell key ∧ q'.build.1 = T.spell (fun i => rename (key i)) ∧
      Set.BijOn rename { name | name ∈ q.params.keys } { name | name ∈ q'.params.keys } ∧
      (∀ name ∈ q.params.keys, q'.params.get? (rename name) = q.params.get? name) ∧
      (q.params.isEmpty = true → q'.build.1 = q.build.1) := by
  intro q q' key
  obtain ⟨table, hq₀⟩ := query_of_start describe h
  have hsql : s₀.query.sql = none := by rw [hq₀]; rfl
  have hparams : s₀.query.params = { tag := target.dialect.parameterTag } := by rw [hq₀]; rfl
  have hname : s₀.query.params.upcoming.name = key := by
    rw [hparams]
    funext i
    exact congrArg key (Nat.zero_add i)
  obtain ⟨g, hg⟩ := exists_contribution describe s₀ (steps ++ steps') hi.unsettled
  obtain ⟨hsteps, hsteps'⟩ := List.forall_mem_append.1 hg
  obtain ⟨f, hf, hclauses⟩ := exists_renumbering describe hi hg
  obtain ⟨T, hholes, hT⟩ := drafted_drawn hsql (steps.map g)
  have hrun := run_withParams describe hsql hsteps hdone
  obtain ⟨hbuild, hq⟩ : q.build.1 = _ ∧ q.params = _ := hrun s₀.query.params
  obtain ⟨hbuild', hq'⟩ : q'.build.1 = _ ∧ q'.params = _ :=
    run_withParams describe hsql hsteps' hdone' s₀.query.params
  rw [hname] at hbuild hbuild'
  rw [hparams] at hq hq'
  -- Keys and moved keys are names that can be seen, so the template stands for both.
  have htext : q.build.1 = T.spell key :=
    hbuild.trans (hT ⟨key, fun _ => Parameters.isBlank_key _ _⟩)
  have htext' : q'.build.1 = T.spell fun i => key (f i) := by
    rw [hbuild', hclauses key]
    exact hT ⟨fun i => key (f i), fun _ => Parameters.isBlank_key _ _⟩
  have hsize : q.params.size = (Edit.bound (steps.map g)).length := by
    rw [hq, Parameters.size_extend]
    exact Nat.zero_add _
  refine ⟨T, Parameters.rename target.dialect.parameterTag f, fun p => ?_, fun i hi => ?_, htext,
    ?_, ?_, fun name hname => ?_, fun hempty => ?_⟩
  · rw [Template.fill_eq_spell, (hrun p).1]
    exact hT p.upcoming
  · rw [hsize]
    exact hholes i hi
  · simp only [key, Parameters.rename_key]
    exact htext'
  · rw [hq, hq']
    exact Parameters.bijOn_rename hf.bijOn
  · rw [hq] at hname ⊢
    rw [hq']
    obtain ⟨i, hi, rfl⟩ := Parameters.mem_keys_extend_iff.1 hname
    rw [Parameters.rename_key, Parameters.get?_extend, Parameters.get?_extend, hf.values i hi]
  · rw [Parameters.isEmpty, List.isEmpty_iff_length_eq_zero, ← Parameters.size, hsize] at hempty
    rw [htext', htext]
    refine Template.spell_congr fun i hi => ?_
    have := hholes i hi
    omega

/-- A window that is set before the condition gets the first name, and the texts differ by it. -/
theorem run_interleaved_window_first :
    let people : Table := ⟨"Person", "Person", [{ name := "Name", ty := .string }]⟩
    let describe : Unit → Description := fun _ => { entity := "Person", fields := people.fields }
    let s₀ : Session Unit := ⟨⟨[((), people)]⟩, .ofTable { dialect := .oracle } people⟩
    let named : Step Unit := .filter fun t => .binary .eq (t.col "Name") (.const (.string "x"))
    let q := (s₀.run describe [named, .distinct, .top 2]).query
    let q' := (s₀.run describe [.top 2, named, .distinct]).query
    q.build.1 = "SELECT DISTINCT \"Person\".\"Name\" FROM \"Person\" " ++
      "WHERE (\"Person\".\"Name\" = :p0) AND (ROWNUM <= :p1)" ∧
    q'.build.1 = "SELECT DISTINCT \"Person\".\"Name\" FROM \"Person\" " ++
      "WHERE (\"Person\".\"Name\" = :p1) AND (ROWNUM <= :p0)" ∧
    ∃ rename : String → String,
      Set.BijOn rename { name | name ∈ q.params.keys } { name | name ∈ q'.params.keys } ∧
      q'.params.get? (rename ":p0") = some (.string "x") ∧
      q'.params.get? (rename ":p1") = some (.int 2) := by
  intro people describe s₀ named q q'
  have h : start describe { dialect := .oracle } () {} = .ok s₀ := rfl
  have hi : Interleaved [named, .distinct, .top 2] [.top 2, named, .distinct] := by
    refine ⟨by simp [named, Step.closes], fun b => ?_, by simp [named], by simp⟩
    cases b <;> rfl
  obtain ⟨T, rename, -, -, -, -, hbij, hvalues, -⟩ :=
    run_interleaved describe h hi (by decide) (by decide)
  have hq : q.params = .extend { tag := ":" } [.string "x", .int 2] := rfl
  have hget (i : Nat) := Parameters.get?_extend ":" [.string "x", .int 2] i
  rw [← hq] at hget
  have hfirst : Parameters.key ":" 0 = ":p0" := by decide
  have hsecond : Parameters.key ":" 1 = ":p1" := by decide
  refine ⟨by decide, by decide, rename, hbij, ?_, ?_⟩
  · rw [hvalues ":p0" (by decide), ← hfirst]
    exact hget 0
  · rw [hvalues ":p1" (by decide), ← hsecond]
    exact hget 1

end Session

end SqlCompose
