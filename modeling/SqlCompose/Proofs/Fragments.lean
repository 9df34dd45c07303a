/-
Conditions are operands.

A clause sets conditions side by side with AND, OR and its keyword, and puts no parentheses around
the first two. So a condition has to hold together by itself: `Target.predicate_isOperand` says that
an engine reads its text as one operand, with every parenthesis closed and with no comma or white
space outside of them, and that it does so wherever the text stands. The exceptions are a list and a
named expression at the root, which are no conditions, and literal SQL, which is written as it is.

The induction is over the expression. Every text passes from depth one on, inside of the parentheses
of a node, and all but the exceptions pass from depth zero on.
-/
import SqlCompose.Expr.Build
import SqlCompose.Proofs.Nesting
import SqlCompose.Proofs.Objections

namespace SqlCompose

/-! ## Expressions that hold together -/

/-- Literal SQL, or a list or tuple with some inside. -/
inductive Value.HoldsSql : Value → Prop
  | sql (text : String) : HoldsSql (.sql text)
  | list {items : List Value} {v : Value} (hv : v ∈ items) (h : HoldsSql v) :
    HoldsSql (.list items)
  | tuple {items : List Value} {v : Value} (hv : v ∈ items) (h : HoldsSql v) :
    HoldsSql (.tuple items)

/-- Names of which the engine sees where they end: all of them between quotes, and bare ones without
white space, commas, parentheses and quotes. -/
def Dialect.Bounds (d : Dialect) (name : String) : Prop :=
  d = .generic → d.Plain name

namespace Expr

/-- No literal SQL is rendered, and the engine sees where names end. -/
structure Orderly (d : Dialect) (e : Expr) : Prop where
  noSql : ∀ v : Value, RenderedIn (const v) e → ¬ v.HoldsSql
  columns : ∀ (table : Table) (name : String), RenderedIn (column table name) e →
    d.Bounds table.name ∧ d.Bounds name
  aliases : ∀ (callee : Callee) (x : Expr) (name : String) (rest : List Expr),
    callee.intrinsic? = some .named →
    RenderedIn (call callee (x :: const (.string name) :: rest)) e → d.Bounds name

/-- Neither a list nor a named expression, which stand in no condition. -/
def isOperand : Expr → Bool
  | tuple _ => false
  | call callee _ => callee.intrinsic? ≠ some .named
  | _ => true

/-- How deep an expression has to stand. -/
def leastDepth (e : Expr) : Nat := if e.isOperand then 0 else 1

theorem leastDepth_le_one (e : Expr) : e.leastDepth ≤ 1 := by
  unfold leastDepth
  split <;> omega

theorem leastDepth_call {callee : Callee} {f : Intrinsic} (hf : callee.intrinsic? = some f)
    (args : List Expr) : (call callee args).leastDepth = if f = .named then 1 else 0 := by
  by_cases hnamed : f = .named <;> simp [leastDepth, isOperand, hf, hnamed]

/-- Parts of an orderly expression are orderly. -/
theorem Orderly.part {d : Dialect} {e x : Expr} (h : e.Orderly d)
    (hx : ∀ y : Expr, RenderedIn y x → RenderedIn y e) : x.Orderly d where
  noSql v hv := h.noSql v (hx _ hv)
  columns table name hc := h.columns table name (hx _ hc)
  aliases callee y name rest hf ha := h.aliases callee y name rest hf (hx _ ha)

end Expr

/-! ## Computations that write such texts -/

/-- From parameters with that tag, nothing but such texts is written. -/
structure Writes (tag : String) (P : String → Prop) (m : Binder String) : Prop where
  ok : ∀ {p q : Parameters} {text : String}, p.tag = tag → m.exec p = (.ok text, q) →
    P text ∧ q.tag = tag

namespace Writes

variable {tag : String} {P Q R : String → Prop} {m n : Binder String}

theorem pure {text : String} (h : P text) : Writes tag P (Pure.pure text) where
  ok hp hx := by
    cases hx
    exact ⟨h, hp⟩

theorem refuse (cause : Unsupported) : Writes tag P (.refuse cause) where
  ok _ hx := by cases hx

theorem bindValue (h : ∀ n, P (Parameters.key tag n)) (v : Value) :
    Writes tag P (.bindValue v) where
  ok {p q text} hp hx := by
    cases hx
    exact ⟨by simpa [Parameters.nextKey, hp] using h p.size, hp⟩

theorem mono (hm : Writes tag P m) (h : ∀ x, P x → Q x) : Writes tag Q m where
  ok hp hx := by
    obtain ⟨htext, hq⟩ := hm.ok hp hx
    exact ⟨h _ htext, hq⟩

theorem bind (hm : Writes tag P m) {k : String → Binder String}
    (hk : ∀ x, P x → Writes tag Q (k x)) : Writes tag Q (m >>= k) where
  ok hp h := by
    obtain ⟨x, p', hx, h⟩ := Binder.exec_bind_eq_ok h
    obtain ⟨htext, hp'⟩ := hm.ok hp hx
    exact (hk x htext).ok hp' h

theorem map (hm : Writes tag P m) {f : String → String} (hf : ∀ x, P x → Q (f x)) :
    Writes tag Q (do return f (← m)) :=
  hm.bind fun x hx => pure (hf x hx)

theorem seq (hm : Writes tag P m) (hn : Writes tag Q n) {f : String → String → String}
    (hf : ∀ x y, P x → Q y → R (f x y)) :
    Writes tag R (do
      let x ← m
      let y ← n
      return f x y) :=
  hm.bind fun x hx => hn.map fun y hy => hf x y hx hy

theorem mapM {α : Type} {f : α → Binder String} : ∀ {items : List α},
    (∀ x ∈ items, Writes tag P (f x)) → ∀ {p q : Parameters} {texts : List String}, p.tag = tag →
    (items.mapM f).exec p = (.ok texts, q) → (∀ x ∈ texts, P x) ∧ q.tag = tag
  | [], _, p, q, texts, hp, hx => by
    cases hx
    exact ⟨nofun, hp⟩
  | y :: items, h, p, q, texts, hp, hx => by
    obtain ⟨hy, hitems⟩ := List.forall_mem_cons.1 h
    obtain ⟨text, rest, p', htext, hrest, rfl⟩ := Binder.exec_mapM_cons hx
    obtain ⟨htext, hp'⟩ := hy.ok hp htext
    obtain ⟨htexts, hq⟩ := mapM hitems hp' hrest
    exact ⟨List.forall_mem_cons.2 ⟨htext, htexts⟩, hq⟩

/-- Items of a comma list stand inside of parentheses. -/
theorem commaList {d : Dialect} {α : Type} {f : α → Binder String} {items : List α}
    (h : ∀ x ∈ items, Writes tag (Passes d 1) (f x)) :
    Writes tag (Passes d 1) (do return SqlCompose.commaList (← items.mapM f)) where
  ok hp hx := by
    obtain ⟨texts, p', hx, hend⟩ := Binder.exec_bind_eq_ok hx
    obtain ⟨htexts, hq⟩ := mapM h hp hx
    cases hend
    exact ⟨.commaList htexts, hq⟩

theorem parenthesized {d : Dialect} {α : Type} {f : α → Binder String} {items : List α}
    (h : ∀ x ∈ items, Writes tag (Passes d 1) (f x)) :
    Writes tag (Passes d 0) (do return "(" ++ SqlCompose.commaList (← items.mapM f) ++ ")") := by
  have hframe : ∀ x, Passes d 1 x → Passes d 0 ("(" ++ x ++ ")") :=
    fun x hx => .frame (.fixed rfl) hx (.fixed rfl)
  simpa using (commaList h).map hframe

/-- Every expression can stand inside of parentheses. -/
theorem inside {d : Dialect} {e : Expr} (h : Writes tag (Passes d e.leastDepth) m) :
    Writes tag (Passes d 1) m :=
  h.mono fun _ hx => hx.mono e.leastDepth_le_one

end Writes

/-! ## The texts of the engines -/

section Texts

variable {d : Dialect} {x y : String}

theorem passes_boolLiteral (engine : Dialect) (b : Bool) : Passes d 0 (engine.boolLiteral b) := by
  cases engine <;> cases b <;> exact .fixed rfl

theorem passes_unary (op : UnaryOp) (h : Passes d 1 x) : Passes d 0 (Dialect.unary op x) := by
  cases op <;> exact .frame (.fixed rfl) h (.fixed rfl)

theorem passes_nullTest (op : BinaryOp) (h : Passes d 1 x) :
    Passes d 0 (Dialect.nullTest op x) := by
  unfold Dialect.nullTest
  split <;> exact .frame (.fixed rfl) h (.fixed rfl)

theorem leads_symbol (op : BinaryOp) : Leads d op.symbol 1 1 := by
  cases op <;> exact .fixed rfl

theorem passes_binary (engine : Dialect) (op : BinaryOp) (hx : Passes d 1 x) (hy : Passes d 1 y) :
    Passes d 0 (engine.binary op x y) := by
  have hright : Passes d 1 (op.symbol ++ " " ++ y) :=
    .prepend ((leads_symbol op).append (.fixed rfl)) hy
  have h : Passes d 0 ("(" ++ x ++ " " ++ (op.symbol ++ " " ++ y) ++ ")") :=
    .frame₂ (.fixed rfl) hx (.fixed rfl) hright (.fixed rfl)
  rw [← String.append_assoc, ← String.append_assoc] at h
  cases op with
  | concat => cases engine <;> exact .frame₂ (.fixed rfl) hx (.fixed rfl) hy (.fixed rfl)
  | _ => exact h

theorem passes_applied (function : String) (hfunction : Leads d function 0 0) {args : List String}
    (h : ∀ x ∈ args, Passes d 1 x) : Passes d 0 (Target.applied function args) :=
  .frame (hfunction.append (.fixed rfl)) (.commaList h) (.fixed rfl)

theorem passes_functionOf (t : Target) (f : Intrinsic) (h : Passes d 1 x) :
    Passes d 0 (t.functionOf f x) := by
  have happlied : ∀ function : String, Leads d function 0 0 →
      Passes d 0 (Target.applied function [x]) := fun function hfunction =>
    passes_applied function hfunction (List.forall_mem_singleton.2 h)
  cases f with
  | trim =>
    change Passes d 0 (t.dialect.trim x)
    unfold Dialect.trim
    split
    · exact .frame (.fixed rfl) (h.mono (Nat.le_succ 1)) (.fixed rfl)
    · exact .frame (.fixed rfl) h (.fixed rfl)
  | length =>
    refine happlied _ ?_
    cases t.dialect <;> exact .fixed rfl
  | _ => exact happlied _ (.fixed rfl)

theorem passes_ifNull (engine : Dialect) (hx : Passes d 1 x) (hy : Passes d 1 y) :
    Passes d 0 (Target.applied engine.nullFunction [x, y]) := by
  refine passes_applied _ ?_ (by simpa using ⟨hx, hy⟩)
  cases engine <;> exact .fixed rfl

theorem passes_memberTest (list : Expr) (hx : Passes d 1 x) (hy : Passes d 1 y) :
    Passes d 0 (Target.memberTest x list y) := by
  unfold Target.memberTest
  split
  · exact .frame₂ (.fixed rfl) hx (.fixed rfl) hy (.fixed rfl)
  · have hlist : Passes d 1 ("(" ++ y ++ ")") :=
      .frame (.fixed rfl) (hy.mono (Nat.le_succ 1)) (.fixed rfl)
    have heq : "(" ++ x ++ " IN (" ++ y ++ "))" =
        "(" ++ x ++ " IN " ++ ("(" ++ y ++ ")") ++ ")" := by
      apply String.toList_inj.1
      simp
    rw [heq]
    exact .frame₂ (.fixed rfl) hx (.fixed rfl) hlist (.fixed rfl)

theorem passes_likeTest (hx : Passes d 1 x) (hy : Passes d 1 y) :
    Passes d 0 ("(" ++ x ++ " LIKE " ++ y ++ ")") :=
  .frame₂ (.fixed rfl) hx (.fixed rfl) hy (.fixed rfl)

theorem passes_rangeTest {low high : String} (hx : Passes d 1 x) (hlow : Passes d 1 low)
    (hhigh : Passes d 1 high) : Passes d 0 (Target.rangeTest x low high) := by
  have h : Passes d 0 ("(" ++ x ++ " BETWEEN " ++ (low ++ " AND " ++ high) ++ ")") :=
    .frame₂ (.fixed rfl) hx (.fixed rfl) (hlow.join (.fixed rfl) hhigh) (.fixed rfl)
  simpa [Target.rangeTest, String.append_assoc] using h

/-! ### Names -/

theorem passes_quoteIdentifier {t : Target} {name : String} (h : t.dialect.Bounds name) :
    Passes t.dialect 0 (t.quoteIdentifier name) := by
  obtain ⟨d, options⟩ := t
  cases d with
  | generic => exact (leads_of_plain (h rfl) 0).passes
  | mySql | postgres | sqlServer | oracle | sqlite =>
    exact passes_enclose rfl rfl name

theorem passes_columnRef {t : Target} {table name : String} (htable : t.dialect.Bounds table)
    (hname : t.dialect.Bounds name) : Passes t.dialect 0 (t.columnRef table name) :=
  (passes_quoteIdentifier htable).join (.fixed rfl) (passes_quoteIdentifier hname)

theorem passes_key {tag : String} (h : d.Plain tag) (n : Nat) :
    Passes d 0 (Parameters.key tag n) := by
  have hletter : Leads d (tag ++ "p") 0 0 := (leads_of_plain h 0).append (.fixed rfl)
  exact (hletter.append (leads_repr n 0)).passes

/-! ### Times -/

theorem doubling_of_not_mem {q : Char} {s : List Char} (h : q ∉ s) : doubling q s = s := by
  induction s with
  | nil => rfl
  | cons c s ih =>
    obtain ⟨hc, hs⟩ := not_or.1 (mt List.mem_cons.2 h)
    rw [doubling, if_neg (Ne.symm hc), ih hs]

theorem not_mem_padded {c : Char} (h : c.isDigit = false) (width n : Nat) :
    c ∉ (DateTime.padded width n).toList := by
  intro hc
  rw [DateTime.padded, String.toList_append, List.mem_append, String.toList_ofList] at hc
  rcases hc with hc | hc
  · obtain rfl : c = '0' := List.eq_of_mem_replicate hc
    cases h
  · rw [isDigit_of_mem_repr hc] at h
    cases h

theorem not_mem_text (t : DateTime) {c : Char} (hdigit : c.isDigit = false)
    (hsigns : c ∉ ['-', '+', ':', '.', ' ']) : c ∉ t.text.toList := by
  simp only [List.mem_cons, List.not_mem_nil, or_false, not_or] at hsigns
  have hpad := not_mem_padded hdigit
  have hyear : c ∉ (DateTime.yearText t.year).toList := by
    unfold DateTime.yearText
    (repeat' split) <;> simp [hpad, hsigns]
  have hfraction : ∀ nano, c ∉ (DateTime.fractionText nano).toList := by
    intro nano
    unfold DateTime.fractionText
    (repeat' split) <;> simp [hpad, hsigns]
  simp [DateTime.text, DateTime.dateText, DateTime.clockText, hpad, hyear, hfraction, hsigns]

theorem passes_dateTimeLiteral (engine : Dialect) (t : DateTime) :
    Passes d 1 (engine.dateTimeLiteral t) := by
  have hmem : apostrophe ∉ t.text.toList := not_mem_text t (by decide) (by decide)
  have hliteral : Passes d 0 ("'" ++ t.text ++ "'") := by
    have heq : "'" ++ t.text ++ "'" = enclose apostrophe apostrophe t.text := by
      apply String.toList_inj.1
      rw [toList_enclose, doubling_of_not_mem hmem]
      simp [apostrophe]
    rw [heq]
    exact passes_enclose rfl rfl t.text
  unfold Dialect.dateTimeLiteral
  split
  · have h : Passes d 1 ("TIMESTAMP " ++ ("'" ++ t.text ++ "'")) :=
      .prepend (.fixed rfl) (hliteral.mono (Nat.zero_le 1))
    have heq : "TIMESTAMP '" ++ t.text ++ "'" = "TIMESTAMP " ++ ("'" ++ t.text ++ "'") := by
      apply String.toList_inj.1
      simp
    exact heq ▸ h
  · exact hliteral.mono (Nat.zero_le 1)

/-! ### Types -/

theorem leads_sized {keyword : String} (size : UInt32) (h : Leads d keyword 1 1) :
    Leads d (TypeUse.sized keyword size) 1 1 :=
  ((h.append (.fixed rfl : Leads d "(" 1 2)).append (leads_repr _ 2)).append (.fixed rfl)

theorem leads_exact {keyword : String} (u : TypeUse) (h : Leads d keyword 1 1) :
    Leads d (TypeUse.exact keyword u) 1 1 :=
  ((((h.append (.fixed rfl : Leads d "(" 1 2)).append (leads_repr _ 2)).append
    (.fixed rfl : Leads d ", " 2 2)).append (leads_repr _ 2)).append (.fixed rfl)

theorem leads_sizedOr {keyword other : String} (size : UInt32) (h : Leads d keyword 1 1)
    (hother : Leads d other 1 1) :
    Leads d (if size ≠ 0 then TypeUse.sized keyword size else other) 1 1 := by
  split
  · exact leads_sized size h
  · exact hother

theorem leads_standard (u : TypeUse) : Leads d u.standard 1 1 := by
  obtain ⟨ty, size, precision, casting⟩ := u
  cases ty with
  | decimal => exact leads_exact _ (.fixed rfl)
  | string =>
    refine leads_sizedOr size (.fixed rfl) ?_
    split <;> exact .fixed rfl
  | binary => exact leads_sizedOr size (.fixed rfl) (.fixed rfl)
  | _ =>
    simp only [TypeUse.standard]
    exact .fixed rfl

theorem leads_mySqlCast (u : TypeUse) : Leads d u.mySqlCast 1 1 := by
  obtain ⟨ty, size, precision, casting⟩ := u
  cases ty with
  | decimal => exact leads_exact _ (.fixed rfl)
  | string => exact leads_sizedOr size (.fixed rfl) (.fixed rfl)
  | _ =>
    simp only [TypeUse.mySqlCast]
    exact .fixed rfl

theorem leads_mySqlColumn (u : TypeUse) : Leads d u.mySqlColumn 1 1 := by
  have hstandard := leads_standard (d := d) u
  obtain ⟨ty, size, precision, casting⟩ := u
  cases ty with
  | decimal | guid => exact hstandard
  | string | binary =>
    simp only [TypeUse.mySqlColumn]
    split
    · exact .fixed rfl
    · exact hstandard
  | _ =>
    simp only [TypeUse.mySqlColumn]
    exact .fixed rfl

theorem leads_postgres (u : TypeUse) : Leads d u.postgres 1 1 := by
  have hstandard := leads_standard (d := d) u
  obtain ⟨ty, size, precision, casting⟩ := u
  cases ty with
  | decimal => exact leads_exact _ (.fixed rfl)
  | guid | binary =>
    simp only [TypeUse.postgres]
    exact .fixed rfl
  | string =>
    simp only [TypeUse.postgres]
    split
    · exact .fixed rfl
    · exact hstandard
  | _ => exact hstandard

theorem leads_sqlServer (u : TypeUse) : Leads d u.sqlServer 1 1 := by
  obtain ⟨ty, size, precision, casting⟩ := u
  cases ty with
  | decimal => exact leads_exact _ (.fixed rfl)
  | string => exact leads_sizedOr size (.fixed rfl) (.fixed rfl)
  | binary => exact leads_sizedOr size (.fixed rfl) (.fixed rfl)
  | _ =>
    simp only [TypeUse.sqlServer]
    exact .fixed rfl

theorem leads_oracle (u : TypeUse) : Leads d u.oracle 1 1 := by
  obtain ⟨ty, size, precision, casting⟩ := u
  cases ty with
  | decimal => exact leads_exact _ (.fixed rfl)
  | string =>
    refine leads_sizedOr size (.fixed rfl) ?_
    split <;> exact .fixed rfl
  | binary => exact leads_sizedOr size (.fixed rfl) (.fixed rfl)
  | _ =>
    simp only [TypeUse.oracle]
    exact .fixed rfl

theorem leads_sqlite (u : TypeUse) : Leads d u.sqlite 1 1 := by
  unfold TypeUse.sqlite
  split <;> exact .fixed rfl

/-- Every type is written so that it can stand in a cast, whatever its size. -/
theorem leads_typeName (engine : Dialect) (u : TypeUse) : Leads d (engine.typeName u) 1 1 := by
  cases engine with
  | generic => exact leads_standard u
  | mySql =>
    rw [Dialect.typeName]
    split
    · exact leads_mySqlCast u
    · exact leads_mySqlColumn u
  | postgres => exact leads_postgres u
  | sqlServer => exact leads_sqlServer u
  | oracle => exact leads_oracle u
  | sqlite => exact leads_sqlite u

theorem passes_cast (engine : Dialect) (u : TypeUse) (h : Passes d 1 x) :
    Passes d 0 ("CAST(" ++ x ++ " AS " ++ engine.typeName u ++ ")") :=
  .frame₂ (.fixed rfl) h (.fixed rfl) (leads_typeName engine u).passes (.fixed rfl)

end Texts

/-! ## Rendering -/

theorem Dialect.plain_parameterTag (d engine : Dialect) : d.Plain engine.parameterTag := by
  have htag : engine.parameterTag.toList.all d.isPlain = true := by
    cases engine <;> cases d <;> rfl
  exact List.all_eq_true.1 htag

namespace Target

variable {t : Target} {tag : String}

mutual

theorem renderValue_writes (htag : t.dialect.Plain tag) :
    ∀ v : Value, ¬ v.HoldsSql → Writes tag (Passes t.dialect 0) (t.renderValue v)
  | .null, _ => .pure (.fixed rfl)
  | .bool b, _ => .pure (passes_boolLiteral t.dialect b)
  | .sql text, h => absurd (.sql text) h
  | .list items, h => by
    rw [renderValue, renderValues_eq_mapM]
    exact .parenthesized (renderValue_writes_of_mem htag items fun v hv hsql => h (.list hv hsql))
  | .tuple items, h => by
    rw [renderValue, renderValues_eq_mapM]
    exact .parenthesized (renderValue_writes_of_mem htag items fun v hv hsql => h (.tuple hv hsql))
  | .record _, _ => .refuse _
  | .int _, _ | .float _, _ | .decimal _, _ | .string _, _ | .dateTime _, _ | .guid _, _
  | .binary _, _ => .bindValue (passes_key htag) _

theorem renderValue_writes_of_mem (htag : t.dialect.Plain tag) :
    ∀ items : List Value, (∀ v ∈ items, ¬ v.HoldsSql) →
      ∀ v ∈ items, Writes tag (Passes t.dialect 1) (t.renderValue v)
  | [], _ => nofun
  | v :: rest, h => by
    obtain ⟨hv, hrest⟩ := List.forall_mem_cons.1 h
    exact List.forall_mem_cons.2
      ⟨(renderValue_writes htag v hv).mono fun _ hx => hx.mono (Nat.zero_le 1),
        renderValue_writes_of_mem htag rest hrest⟩

end

theorem writtenBound_passes {e : Expr} {text : String} (h : t.writtenBound? e = some text) :
    Passes t.dialect 1 text := by
  unfold writtenBound? at h
  split at h
  · split at h
    · cases h
    · cases h
      exact passes_dateTimeLiteral t.dialect _
  · cases h

theorem writtenOr_writes {e : Expr} (h : Writes tag (Passes t.dialect 1) (t.render e)) :
    Writes tag (Passes t.dialect 1) (writtenOr (t.writtenBound? e) (t.render e)) := by
  cases hwritten : t.writtenBound? e with
  | none => exact h
  | some text => exact .pure (writtenBound_passes hwritten)

theorem aliasName_eq_ok {args : List Expr} {name : String} (h : aliasName args = .ok name) :
    ∃ x rest, args = x :: .const (.string name) :: rest := by
  unfold aliasName at h
  split at h <;> cases h
  exact ⟨_, _, rfl⟩

theorem renderNamed_writes {args : List Expr}
    (hname : ∀ x name rest, args = x :: .const (.string name) :: rest → t.dialect.Bounds name)
    (h : ∀ e ∈ Intrinsic.rendered .named args, Writes tag (Passes t.dialect 1) (t.render e)) :
    Writes tag (Passes t.dialect 1) (t.renderCall .named args) := by
  match args with
  | [] => exact .refuse _
  | x :: rest =>
    rw [renderCall]
    split
    · exact .refuse _
    · next name halias =>
      obtain ⟨y, others, heq⟩ := aliasName_eq_ok halias
      have hquoted := (passes_quoteIdentifier (hname y name others heq)).mono (Nat.zero_le 1)
      have hx := h x (by simp [Intrinsic.rendered])
      exact hx.map fun _ hx => Passes.join hx (.fixed rfl) hquoted

/-- The other calls, given that the arguments that are rendered hold together. -/
theorem renderCall_writes {f : Intrinsic} (hf : f ≠ .named) {args : List Expr}
    (h : ∀ e ∈ f.rendered args, Writes tag (Passes t.dialect 1) (t.render e)) :
    Writes tag (Passes t.dialect 0) (t.renderCall f args) := by
  match args with
  | [] =>
    cases f with
    | count => exact .pure (.fixed rfl)
    | _ => exact .refuse _
  | x :: rest =>
    cases f with
    | named => exact absurd rfl hf
    | cast =>
      have hx := h x (by simp [Intrinsic.rendered])
      rw [renderCall]
      split
      · exact .refuse _
      · exact hx.map fun _ => passes_cast t.dialect _
    | between =>
      obtain ⟨hx, hrest⟩ := List.forall_mem_cons.1 h
      rw [renderCall]
      refine hx.bind fun y hy => ?_
      match rest with
      | [] => exact .refuse _
      | [low] =>
        have hlow := writtenOr_writes (hrest low (by simp))
        simpa [Functor.discard, map_const] using
          hlow.bind (Q := Passes t.dialect 0) fun _ _ => .refuse (.missingArgument .between 2)
      | low :: high :: _ =>
        have hlow := writtenOr_writes (hrest low (by simp))
        have hhigh := writtenOr_writes (hrest high (by simp))
        exact hlow.seq hhigh fun _ _ => passes_rangeTest hy
    | member =>
      obtain ⟨hx, hrest⟩ := List.forall_mem_cons.1 h
      rw [renderCall]
      refine hx.bind fun y hy => ?_
      match rest with
      | [] => exact .refuse _
      | list :: _ =>
        dsimp only
        split
        · exact .pure (passes_binary t.dialect .eq (.fixed rfl) (.fixed rfl))
        · exact (hrest list (by simp)).map fun _ => passes_memberTest list hy
    | like =>
      obtain ⟨hx, hrest⟩ := List.forall_mem_cons.1 h
      rw [renderCall]
      refine hx.bind fun y hy => ?_
      match rest with
      | [] => exact .refuse _
      | pattern :: _ =>
        exact (hrest pattern (by simp)).map fun _ => passes_likeTest hy
    | ifNull =>
      obtain ⟨hx, hrest⟩ := List.forall_mem_cons.1 h
      rw [renderCall]
      refine hx.bind fun y hy => ?_
      match rest with
      | [] => exact .refuse _
      | fallback :: _ =>
        exact (hrest fallback (by simp)).map fun _ => passes_ifNull t.dialect hy
    | _ =>
      obtain ⟨hx, -⟩ := List.forall_mem_cons.1 h
      exact hx.map fun _ => passes_functionOf t _

mutual

theorem render_writes (htag : t.dialect.Plain tag) :
    ∀ e : Expr, e.Orderly t.dialect →
      Writes tag (Passes t.dialect e.leastDepth) (t.render e)
  | .column table name, h => by
    obtain ⟨htable, hname⟩ := h.columns table name .root
    exact .pure (passes_columnRef htable hname)
  | .member _ _, _ => .refuse _
  | .const v, h => renderValue_writes htag v (h.noSql v .root)
  | .unary op e, h =>
    (render_writes htag e (h.part fun _ => .operand)).inside.map fun _ => passes_unary op
  | .binary op l r, h => by
    have hl := (render_writes htag l (h.part fun _ => .left)).inside
    have hr := (render_writes htag r (h.part fun _ => .right)).inside
    rw [render]
    split
    · exact hl.map fun _ => passes_nullTest op
    split
    · exact hr.map fun _ => passes_nullTest op
    · exact hl.seq hr fun _ _ => passes_binary t.dialect op
  | .call callee args, h => by
    rw [render]
    split
    · next f hf =>
      have hargs : ∀ e ∈ f.rendered args, Writes tag (Passes t.dialect 1) (t.render e) :=
        fun e he => render_writes_of_mem htag args e (Intrinsic.mem_of_mem_rendered he)
          (h.part fun _ => .argument hf he)
      rw [Expr.leastDepth_call hf]
      split
      · next hnamed =>
        subst hnamed
        refine renderNamed_writes ?_ hargs
        rintro x name rest rfl
        exact h.aliases callee x name rest hf .root
      · next hnamed => exact renderCall_writes hnamed hargs
    · exact .refuse _
  | .tuple items, h => by
    rw [render, renderAll_eq_mapM]
    exact .commaList fun e he => render_writes_of_mem htag items e he (h.part fun _ => .item he)

theorem render_writes_of_mem (htag : t.dialect.Plain tag) :
    ∀ items : List Expr, ∀ e ∈ items, e.Orderly t.dialect →
      Writes tag (Passes t.dialect 1) (t.render e)
  | [] => nofun
  | e :: rest => List.forall_mem_cons.2
    ⟨fun h => (render_writes htag e h).inside, render_writes_of_mem htag rest⟩

end

theorem passes_predicate {t : Target} {e r : Expr} {p q : Parameters} {text : String}
    (htag : t.dialect.Plain p.tag) (hr : e.reduce .predicate = .ok r)
    (hoperand : r.isOperand = true) (horderly : r.Orderly t.dialect)
    (h : (t.predicate e).exec p = (.ok text, q)) : Passes t.dialect 0 text := by
  rw [predicate, reduced, hr, pure_bind, renderCondition] at h
  split at h
  · next b _ =>
    cases h
    refine passes_binary t.dialect .eq (.fixed rfl) ?_
    cases b <;> exact .fixed rfl
  · have hwrites := render_writes htag r horderly
    rw [Expr.leastDepth, if_pos hoperand] at hwrites
    exact (hwrites.ok rfl h).1

/-- **Conditions are operands.** Let a condition be reduced to an expression that is neither a list
nor an alias, in which no literal SQL is rendered and the engine sees where names end: all names do
between quotes, and bare ones have no white space, commas, parentheses and quotes. Then its text is
read with every parenthesis closed and no comma or white space outside of them, and within a longer
text, at any depth, it is passed over as a whole. Parameters are named as for any of the engines. -/
theorem predicate_isOperand {t : Target} {e r : Expr} {p q : Parameters} {text : String}
    {engine : Dialect} (htag : p.tag = engine.parameterTag)
    (hr : e.reduce .predicate = .ok r) (hoperand : r.isOperand = true)
    (horderly : r.Orderly t.dialect) (h : (t.predicate e).exec p = (.ok text, q)) :
    t.dialect.scan .outside 0 text.toList = some 0 ∧
      ∀ depth rest, Apart t.dialect rest →
        t.dialect.scan .outside depth (text.toList ++ rest) =
          t.dialect.scan .outside depth rest := by
  have hplain : t.dialect.Plain p.tag := by
    rw [htag]
    exact t.dialect.plain_parameterTag engine
  have hpasses := passes_predicate hplain hr hoperand horderly h
  refine ⟨?_, fun depth rest hrest => hpasses depth rest (Nat.zero_le depth) hrest⟩
  simpa [Dialect.scan] using hpasses 0 [] (Nat.le_refl 0) (apart_nil t.dialect)

/-- A range between a time that is written out and a bound value, of a column whose name and table
have parentheses, commas, spaces and closing quotes. -/
theorem predicate_isOperand_between :
    let t : Target := { dialect := .sqlServer, options := { bindBetweenDateTimes := false } }
    let orders : Table := ⟨"Order", "orders (old), ", [{ name := "due] at", ty := .dateTime }]⟩
    let start : DateTime := ⟨2024, 2, 29, 8, 0, 0, 0⟩
    let range : Expr :=
      .between (orders.col "due] at") (.const (.dateTime start)) (.const (.string "later"))
    let text := "(NOT ([orders (old), ].[due]] at] BETWEEN '2024-02-29 08:00:00' AND @p0))"
    ((t.predicate (.unary .not range)).exec {}).1 = .ok text ∧
      t.dialect.scan .outside 0 text.toList = some 0 := by
  intro t orders start range text
  have htext : Dialect.unary .not (rangeTest (t.columnRef orders.name "due] at")
      (t.dialect.dateTimeLiteral start) (Parameters.key "@" 0)) = text := by decide +kernel
  obtain ⟨q, hexec⟩ : ∃ q, (t.predicate (.unary .not range)).exec {} =
      (.ok (Dialect.unary .not (rangeTest (t.columnRef orders.name "due] at")
        (t.dialect.dateTimeLiteral start) (Parameters.key "@" 0))), q) := ⟨_, rfl⟩
  rw [htext] at hexec
  have horderly : (Expr.unary .not range).Orderly t.dialect := by
    refine ⟨fun v hv => ?_, fun _ _ _ => ⟨nofun, nofun⟩, fun _ _ _ _ _ _ => nofun⟩
    cases hv with
    | operand hv =>
    change Expr.RenderedIn _ (Expr.between _ _ _) at hv
    cases hv with
    | argument hf he hv =>
    cases hf
    simp only [Intrinsic.rendered, List.mem_cons, List.not_mem_nil, or_false] at he
    rcases he with rfl | rfl | rfl <;> cases hv <;> nofun
  have htag : ({} : Parameters).tag = Dialect.sqlServer.parameterTag := rfl
  have h := predicate_isOperand htag rfl rfl horderly hexec
  exact ⟨by rw [hexec], h.1⟩

end Target

end SqlCompose
