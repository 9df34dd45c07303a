/-
Two renderings side by side: of two expressions that differ in bound constants
only, for two targets with the same options.

`Expr.Alike V` relates the expressions; `V` says which constants may stand for
which. `render_coupled` is the one induction: both renderings fail for the same
reason or both succeed, and what they bind is related by `V`, entry by entry. If
the two targets are one, the texts and the names of the parameters are equal.

The first use is that bound constants never reach the text (`renderFor_alike`):
there `V` relates everything and the target is the same.
-/
import Mathlib.Data.List.Forall2
import SqlCompose.Expr.Build
import SqlCompose.Proofs.Binder

namespace SqlCompose

/-! ## Expressions that differ in bound constants -/

/-- Values that become parameters. All others are written out, or refused. -/
def Value.isBound : Value → Bool
  | .int _ | .float _ | .decimal _ | .string _ | .dateTime _ | .guid _ | .binary _ => true
  | .null | .bool _ | .list _ | .tuple _ | .record _ | .sql _ => false

mutual

/-- Values that are equal but for bound ones, also inside lists, which `V` relates. -/
inductive Value.Alike (V : Value → Value → Prop) : Value → Value → Prop
  | null : Alike V .null .null
  | bool (b : Bool) : Alike V (.bool b) (.bool b)
  | sql (text : String) : Alike V (.sql text) (.sql text)
  | record (fields : List (String × Value)) : Alike V (.record fields) (.record fields)
  | bound {v w : Value} (hv : v.isBound = true) (hw : w.isBound = true) (h : V v w) : Alike V v w
  | list {vs ws : List Value} (h : AllAlike V vs ws) : Alike V (.list vs) (.list ws)
  | tuple {vs ws : List Value} (h : AllAlike V vs ws) : Alike V (.tuple vs) (.tuple ws)

inductive Value.AllAlike (V : Value → Value → Prop) : List Value → List Value → Prop
  | nil : AllAlike V [] []
  | cons {v w : Value} {vs ws : List Value} (h : Alike V v w) (rest : AllAlike V vs ws) :
    AllAlike V (v :: vs) (w :: ws)

end

/-- Intrinsics that read a name or a type off their arguments instead of rendering them: all but
the first one. -/
def Intrinsic.readsNames : Intrinsic → Bool
  | .named | .cast => true
  | _ => false

mutual

/-- Expressions that are equal but for bound constants, which `V` relates. Aliases, and the types
and sizes of casts, are the same. -/
inductive Expr.Alike (V : Value → Value → Prop) : Expr → Expr → Prop
  | column (table : Table) (name : String) : Alike V (.column table name) (.column table name)
  | member {base base' : Expr} (name : String) (h : Alike V base base') :
    Alike V (.member base name) (.member base' name)
  | const {v w : Value} (h : Value.Alike V v w) : Alike V (.const v) (.const w)
  | binary {l l' r r' : Expr} (op : BinaryOp) (hl : Alike V l l') (hr : Alike V r r') :
    Alike V (.binary op l r) (.binary op l' r')
  | unary {e e' : Expr} (op : UnaryOp) (h : Alike V e e') : Alike V (.unary op e) (.unary op e')
  | call {args args' : List Expr} (callee : Callee) (h : AllAlike V args args')
    (names : ∀ f, callee.intrinsic? = some f → f.readsNames = true → args.tail = args'.tail) :
    Alike V (.call callee args) (.call callee args')
  | tuple {items items' : List Expr} (h : AllAlike V items items') :
    Alike V (.tuple items) (.tuple items')

inductive Expr.AllAlike (V : Value → Value → Prop) : List Expr → List Expr → Prop
  | nil : AllAlike V [] []
  | cons {e e' : Expr} {rest rest' : List Expr} (h : Alike V e e') (hr : AllAlike V rest rest') :
    AllAlike V (e :: rest) (e' :: rest')

end

/-- All that rendering asks of an operand before it renders it has the same answer. -/
structure Expr.LooksLike (e e' : Expr) : Prop where
  isNull : e.isNull = e'.isNull
  asBool? : e.asBool? = e'.asBool?
  isConstantList : Target.isConstantList e = Target.isConstantList e'
  isEmptyList : Target.isEmptyList e = Target.isEmptyList e'

theorem Expr.looksLike_bound {v w : Value} (hv : v.isBound = true) (hw : w.isBound = true) :
    (const v).LooksLike (const w) := by
  cases v <;> cases hv <;> cases w <;> cases hw <;> exact ⟨rfl, rfl, rfl, rfl⟩

theorem Expr.Alike.looksLike {V : Value → Value → Prop} {e e' : Expr} (h : e.Alike V e') :
    e.LooksLike e' := by
  cases h with
  | const h =>
    cases h with
    | bound hv hw => exact looksLike_bound hv hw
    | list h => cases h <;> exact ⟨rfl, rfl, rfl, rfl⟩
    | tuple h => cases h <;> exact ⟨rfl, rfl, rfl, rfl⟩
    | _ => exact ⟨rfl, rfl, rfl, rfl⟩
  | _ => exact ⟨rfl, rfl, rfl, rfl⟩

/-! ## Two computations in step -/

/-- The same error, or two answers that are equal if `same` holds. -/
def Matching {α : Type} (same : Prop) : Except Error α → Except Error α → Prop
  | .ok a, .ok b => same → a = b
  | .error err, .error err' => err = err'
  | _, _ => False

/-- Tables with as many entries, whose values `V` relates one by one; if `same` holds, under the
same names. -/
structure Ledgers (V : Value → Value → Prop) (same : Prop) (p q : Parameters) : Prop where
  values : List.Forall₂ V p.values q.values
  names : same → p.tag = q.tag ∧ p.keys = q.keys

/-- From tables in step, the answers match and the tables stay in step. -/
def Coupled {α : Type} (V : Value → Value → Prop) (same : Prop) (m n : Binder α) : Prop :=
  ∀ p q, Ledgers V same p q →
    Matching same (m.exec p).1 (n.exec q).1 ∧ Ledgers V same (m.exec p).2 (n.exec q).2

theorem Ledgers.size_eq {V : Value → Value → Prop} {same : Prop} {p q : Parameters}
    (h : Ledgers V same p q) : p.size = q.size := by
  simpa [Parameters.values, Parameters.size] using h.values.length_eq

theorem Ledgers.nextKey_eq {V : Value → Value → Prop} {same : Prop} {p q : Parameters}
    (h : Ledgers V same p q) (hs : same) : p.nextKey = q.nextKey := by
  rw [Parameters.nextKey, Parameters.nextKey, h.size_eq, (h.names hs).1]

theorem Ledgers.push {V : Value → Value → Prop} {same : Prop} {p q : Parameters} {v w : Value}
    (h : Ledgers V same p q) (hv : V v w) : Ledgers V same (p.push v) (q.push w) where
  values := by
    simp only [Parameters.values_push]
    exact List.rel_append h.values (.cons hv .nil)
  names hs := by
    obtain ⟨htag, hkeys⟩ := h.names hs
    refine ⟨htag, ?_⟩
    simp only [Parameters.keys, Parameters.push, List.map_append, List.map_cons, List.map_nil]
    rw [h.nextKey_eq hs]
    exact congrArg (· ++ [q.nextKey]) hkeys

namespace Coupled

variable {α β : Type} {V : Value → Value → Prop} {same : Prop}

theorem pure {a b : α} (h : same → a = b) : Coupled V same (Pure.pure a) (Pure.pure b) :=
  fun _ _ hl => ⟨h, hl⟩

theorem refuse (cause : Unsupported) :
    Coupled V same (Binder.refuse cause : Binder α) (Binder.refuse cause) :=
  fun _ _ hl => ⟨rfl, hl⟩

theorem bindValue {v w : Value} (h : V v w) :
    Coupled V same (Binder.bindValue v) (Binder.bindValue w) :=
  fun _ _ hl => ⟨hl.nextKey_eq, hl.push h⟩

theorem bind {m n : Binder α} {k l : α → Binder β} (h : Coupled V same m n)
    (hk : ∀ a b, (same → a = b) → Coupled V same (k a) (l b)) :
    Coupled V same (m >>= k) (n >>= l) := by
  intro p q hl
  obtain ⟨hmatch, hl'⟩ := h p q hl
  rw [Binder.exec_bind, Binder.exec_bind]
  rcases hm : m.exec p with ⟨r, p'⟩
  rcases hn : n.exec q with ⟨r', q'⟩
  rw [hm, hn] at hmatch hl'
  cases r with
  | ok a =>
    cases r' with
    | ok b => exact hk a b hmatch p' q' hl'
    | error err => exact hmatch.elim
  | error err =>
    cases r' with
    | ok b => exact hmatch.elim
    | error err' => exact ⟨hmatch, hl'⟩

theorem map {m n : Binder α} {f g : α → β} (h : Coupled V same m n) (hf : same → f = g) :
    Coupled V same (do return f (← m)) (do return g (← n)) :=
  h.bind fun _ _ hab => pure fun hs => by rw [hf hs, hab hs]

theorem discard {m n : Binder α} (h : Coupled V same m n) :
    Coupled V same (Functor.discard m) (Functor.discard n) :=
  h.map fun _ => rfl

end Coupled

/-! ## Rendering in step -/

/-- Targets with the same options. Where times may be written into a statement, `V` has to keep
them. -/
structure Paired (V : Value → Value → Prop) (t t' : Target) : Prop where
  options : t.options = t'.options
  times : t.options.bindBetweenDateTimes = true ∨ ∀ v w, V v w → v = w

namespace Target

variable {V : Value → Value → Prop} {t t' : Target}

theorem renderValue_of_isBound (t : Target) {v : Value} (h : v.isBound = true) :
    t.renderValue v = .bindValue v := by
  cases v <;> cases h <;> rfl

mutual

theorem renderValue_coupled : ∀ {v w : Value}, v.Alike V w →
    Coupled V (t = t') (t.renderValue v) (t'.renderValue w)
  | _, _, .null | _, _, .sql _ => .pure fun _ => rfl
  | _, _, .bool b => .pure fun hs => by rw [hs]
  | _, _, .record _ => .refuse _
  | _, _, .bound hv hw h => by
    rw [renderValue_of_isBound t hv, renderValue_of_isBound t' hw]
    exact .bindValue h
  | _, _, .list h => (renderValues_coupled h).map fun _ => rfl
  | _, _, .tuple h => (renderValues_coupled h).map fun _ => rfl

theorem renderValues_coupled : ∀ {vs ws : List Value}, Value.AllAlike V vs ws →
    Coupled V (t = t') (t.renderValues vs) (t'.renderValues ws)
  | _, _, .nil => .pure fun _ => rfl
  | _, _, .cons h rest =>
    (renderValue_coupled h).bind fun _ _ hv =>
      (renderValues_coupled rest).bind fun _ _ hr => .pure fun hs => by rw [hv hs, hr hs]

end

/-- Where `V` keeps values, the same time or none at all stands on both sides. -/
theorem time_eq_of_alike (hV : ∀ v w, V v w → v = w) {e e' : Expr} (h : e.Alike V e') :
    (∃ d, e = .const (.dateTime d) ∧ e' = .const (.dateTime d)) ∨
      ∀ s : Target, s.writtenBound? e = none ∧ s.writtenBound? e' = none := by
  cases h with
  | const h =>
    cases h with
    | bound hv _ hvw =>
      obtain rfl := hV _ _ hvw
      rename_i v _
      cases v with
      | dateTime d => exact .inl ⟨d, rfl, rfl⟩
      | _ => exact .inr fun _ => ⟨rfl, rfl⟩
    | _ => exact .inr fun _ => ⟨rfl, rfl⟩
  | _ => exact .inr fun _ => ⟨rfl, rfl⟩

theorem writtenBound?_eq_none {t : Target} (ht : t.options.bindBetweenDateTimes = true) (e : Expr) :
    t.writtenBound? e = none := by
  unfold writtenBound?
  split <;> simp [ht]

theorem writtenOr_coupled (hp : Paired V t t') {e e' : Expr} (h : e.Alike V e')
    {m n : Binder String} (hm : Coupled V (t = t') m n) :
    Coupled V (t = t') (writtenOr (t.writtenBound? e) m) (writtenOr (t'.writtenBound? e') n) := by
  rcases hp.times with ht | hV
  · rw [writtenBound?_eq_none ht, writtenBound?_eq_none (hp.options ▸ ht)]
    exact hm
  · rcases time_eq_of_alike hV h with ⟨d, rfl, rfl⟩ | hnone
    · simp only [writtenBound?, ← hp.options]
      cases t.options.bindBetweenDateTimes with
      | true => exact hm
      | false => exact .pure fun hs => by rw [hs]
    · rw [(hnone t).1, (hnone t').2]
      exact hm

theorem aliasName_cons (x x' : Expr) (rest : List Expr) :
    aliasName (x :: rest) = aliasName (x' :: rest) := by
  cases rest with
  | nil => rfl
  | cons y ys =>
    cases y with
    | const v => cases v <;> rfl
    | _ => rfl

theorem castType_cons (x x' : Expr) (rest : List Expr) :
    castType (x :: rest) = castType (x' :: rest) := by
  cases rest with
  | nil => rfl
  | cons y ys =>
    cases y with
    | const v => cases v <;> rfl
    | _ => rfl

/-- Expressions that are alike and render in step, one by one. -/
abbrev InStep (V : Value → Value → Prop) (t t' : Target) : List Expr → List Expr → Prop :=
  List.Forall₂ fun e e' => e.Alike V e' ∧ Coupled V (t = t') (t.render e) (t'.render e')

theorem renderAll_coupled {es es' : List Expr} (h : InStep V t t' es es') :
    Coupled V (t = t') (t.renderAll es) (t'.renderAll es') := by
  induction h with
  | nil => exact .pure fun _ => rfl
  | cons h _ ih =>
    exact h.2.bind fun _ _ he => ih.bind fun _ _ hr => .pure fun hs => by rw [he hs, hr hs]

theorem renderCall_coupled (hp : Paired V t t') (f : Intrinsic) {args args' : List Expr}
    (h : InStep V t t' args args') (names : f.readsNames = true → args.tail = args'.tail) :
    Coupled V (t = t') (t.renderCall f args) (t'.renderCall f args') := by
  cases h with
  | nil =>
    cases f with
    | count => exact .pure fun _ => rfl
    | _ => exact .refuse _
  | @cons x x' rest rest' hx hrest =>
    replace hx := hx.2
    cases f with
    | named =>
      obtain rfl : rest = rest' := names rfl
      simp only [renderCall, aliasName_cons x x' rest]
      split
      · exact .refuse _
      · exact hx.map fun hs => by rw [hs]
    | cast =>
      obtain rfl : rest = rest' := names rfl
      simp only [renderCall, castType_cons x x' rest]
      split
      · exact .refuse _
      · exact hx.map fun hs => by rw [hs]
    | between =>
      rw [renderCall, renderCall]
      refine hx.bind fun _ _ hx => ?_
      rcases hrest with _ | ⟨⟨hlow, hl⟩, _ | ⟨⟨hhigh, hh⟩, _⟩⟩
      · exact .refuse _
      · exact (writtenOr_coupled hp hlow hl).discard.bind fun _ _ _ => .refuse _
      · exact (writtenOr_coupled hp hlow hl).bind fun _ _ hl =>
          (writtenOr_coupled hp hhigh hh).bind fun _ _ hh =>
            .pure fun hs => by rw [hx hs, hl hs, hh hs]
    | member =>
      rw [renderCall, renderCall]
      refine hx.bind fun _ _ hx => ?_
      rcases hrest with _ | ⟨⟨hlist, hl⟩, _⟩
      · exact .refuse _
      simp only [hlist.looksLike.isEmptyList]
      split
      · exact .pure fun hs => by rw [hs]
      · refine hl.map fun hs => ?_
        funext values
        rw [hx hs, memberTest, memberTest, hlist.looksLike.isConstantList]
    | like =>
      rw [renderCall, renderCall]
      refine hx.bind fun _ _ hx => ?_
      rcases hrest with _ | ⟨⟨_, hpattern⟩, _⟩
      · exact .refuse _
      · exact hpattern.map fun hs => by rw [hx hs]
    | ifNull =>
      rw [renderCall, renderCall]
      refine hx.bind fun _ _ hx => ?_
      rcases hrest with _ | ⟨⟨_, hfallback⟩, _⟩
      · exact .refuse _
      · exact hfallback.map fun hs => by rw [hs, hx hs]
    | _ => exact hx.map fun hs => by rw [hs]

mutual

/-- **Rendering in step.** -/
theorem render_coupled (hp : Paired V t t') : ∀ {e e' : Expr}, e.Alike V e' →
    Coupled V (t = t') (t.render e) (t'.render e')
  | _, _, .column table name => .pure fun hs => by rw [hs]
  | _, _, .member name _ => .refuse _
  | _, _, .const h => renderValue_coupled h
  | _, _, .unary op h => (render_coupled hp h).map fun _ => rfl
  | _, _, .binary op hl hr => by
    rw [render, render, hl.looksLike.isNull, hr.looksLike.isNull]
    split
    · exact (render_coupled hp hl).map fun _ => rfl
    split
    · exact (render_coupled hp hr).map fun _ => rfl
    · exact (render_coupled hp hl).bind fun _ _ hx => (render_coupled hp hr).bind fun _ _ hy =>
        .pure fun hs => by rw [hs, hx hs, hy hs]
  | _, _, .call callee h names => by
    rw [render, render]
    split
    · next f hf => exact renderCall_coupled hp f (inStep hp h) (names f hf)
    · exact .refuse _
  | _, _, .tuple h => (renderAll_coupled (inStep hp h)).map fun _ => rfl

theorem inStep (hp : Paired V t t') : ∀ {es es' : List Expr}, Expr.AllAlike V es es' →
    InStep V t t' es es'
  | _, _, .nil => .nil
  | _, _, .cons h rest => .cons ⟨h, render_coupled hp h⟩ (inStep hp rest)

end

theorem renderFor_coupled (hp : Paired V t t') (mode : Mode) {e e' : Expr} (h : e.Alike V e') :
    Coupled V (t = t') (t.renderFor mode e) (t'.renderFor mode e') := by
  cases mode with
  | predicate =>
    simp only [renderFor, renderCondition, h.looksLike.asBool?]
    split
    · exact .pure fun hs => by rw [hs]
    · exact render_coupled hp h
  | projection => exact render_coupled hp h
  | ordering direction =>
    have hr := render_coupled hp h
    cases h with
    | tuple h => exact (renderAll_coupled (inStep hp h)).map fun _ => rfl
    | _ => exact hr.map fun _ => rfl

end Target

theorem Ledgers.refl {same : Prop} (p : Parameters) : Ledgers (fun _ _ => True) same p p where
  values := List.forall₂_same.2 fun _ _ => trivial
  names _ := ⟨rfl, rfl⟩

theorem Matching.eq {α : Type} : ∀ {x y : Except Error α}, Matching True x y → x = y
  | .ok _, .ok _, h => congrArg Except.ok (h trivial)
  | .error _, .error _, h => congrArg Except.error h

/-- **Bound constants never reach the text.** Two expressions that differ in bound constants only
get the same text or the same error, from any parameters, and the parameters get the same names. -/
theorem renderFor_alike (t : Target) (ht : t.options.bindBetweenDateTimes = true) (mode : Mode)
    {e e' : Expr} (h : e.Alike (fun _ _ => True) e') (p : Parameters) :
    ((t.renderFor mode e).exec p).1 = ((t.renderFor mode e').exec p).1 ∧
      ((t.renderFor mode e).exec p).2.keys = ((t.renderFor mode e').exec p).2.keys := by
  have hp : Paired (fun _ _ => True) t t := ⟨rfl, .inl ht⟩
  obtain ⟨hmatch, hl⟩ := Target.renderFor_coupled hp mode h p p (.refl p)
  rw [eq_self] at hmatch
  exact ⟨hmatch.eq, (hl.names rfl).2⟩

/-- A hostile text stays where a number would be. -/
theorem renderFor_alike_hostile_text :
    let t : Target := { dialect := .mySql }
    let people : Table := ⟨"Person", "Person", [{ name := "Name", ty := .string }]⟩
    let e (v w : Value) := Expr.binary .or (.binary .eq (people.col "Name") (.const v))
      (.inList (people.col "Name") [w, .null])
    let e₁ := e (.string "' OR '1' = '1") (.int 1)
    let e₂ := e (.int 7) (.string "`")
    ((t.renderFor .predicate e₁).exec {}).1 = ((t.renderFor .predicate e₂).exec {}).1 ∧
      ((t.renderFor .predicate e₁).exec {}).2.keys = ((t.renderFor .predicate e₂).exec {}).2.keys :=
  renderFor_alike _ rfl _
    (.binary _ (.binary _ (.column _ _) (.const (.bound rfl rfl trivial)))
      (.call _ (.cons (.column _ _)
        (.cons (.const (.list (.cons (.bound rfl rfl trivial) (.cons .null .nil)))) .nil))
        fun f hf hr => by
          obtain rfl : Intrinsic.member = f := by simpa using hf
          cases hr)) _

end SqlCompose
