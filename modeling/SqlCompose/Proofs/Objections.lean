/-
What cannot be rendered, and computations that fail because of it.

`Expr.RenderedIn` says which nodes of an expression are rendered, and `Expr.Refused` which
of those cannot be, each with its reason. The reasons of an expression are those of its
root and of its parts, one equation for each node. A computation `FailsFor` a set of
reasons if it succeeds where the set is empty and otherwise fails for one of them; the
lemmas say what that set is for the ways in which rendering puts computations together.
-/
import Mathlib.Algebra.Group.Int.Defs
import Mathlib.Data.Set.Basic
import SqlCompose.Proofs.Binder

namespace SqlCompose

/-! ## What cannot be rendered -/

/-- A record, or a list or tuple with one somewhere inside. -/
inductive Value.HoldsRecord : Value → Prop
  | record (fields : List (String × Value)) : HoldsRecord (.record fields)
  | list {items : List Value} {v : Value} (hv : v ∈ items) (h : HoldsRecord v) :
    HoldsRecord (.list items)
  | tuple {items : List Value} {v : Value} (hv : v ∈ items) (h : HoldsRecord v) :
    HoldsRecord (.tuple items)

/-- The arguments that are rendered. The name an alias gives, and the type and size of a cast, are
only looked at. -/
def Intrinsic.rendered (f : Intrinsic) (args : List Expr) : List Expr :=
  match f with
  | .named | .cast => args.take 1
  | _ => args

theorem Intrinsic.mem_of_mem_rendered {f : Intrinsic} {args : List Expr} {e : Expr}
    (h : e ∈ f.rendered args) : e ∈ args := by
  cases f <;> first | exact h | exact List.mem_of_mem_take h

namespace Expr

/-- `x` stands at a place of the expression that is rendered. -/
inductive RenderedIn (x : Expr) : Expr → Prop
  | root : RenderedIn x x
  | operand {op : UnaryOp} {e : Expr} (h : RenderedIn x e) : RenderedIn x (unary op e)
  | left {op : BinaryOp} {l r : Expr} (h : RenderedIn x l) : RenderedIn x (binary op l r)
  | right {op : BinaryOp} {l r : Expr} (h : RenderedIn x r) : RenderedIn x (binary op l r)
  | argument {callee : Callee} {f : Intrinsic} {args : List Expr} {e : Expr}
    (hf : callee.intrinsic? = some f) (he : e ∈ f.rendered args) (h : RenderedIn x e) :
    RenderedIn x (call callee args)
  | item {items : List Expr} {e : Expr} (he : e ∈ items) (h : RenderedIn x e) :
    RenderedIn x (tuple items)

/-- A node that cannot be rendered, whatever is below it, and the reason. -/
inductive Refused : Expr → Unsupported → Prop
  | record {v : Value} (h : v.HoldsRecord) : Refused (const v) .recordAsValue
  | aliasName {callee : Callee} {x y : Expr} {rest : List Expr}
    (hf : callee.intrinsic? = some .named) (hy : ∀ s, y ≠ const (.string s)) :
    Refused (call callee (x :: y :: rest)) .aliasNotConstant
  | castTarget {callee : Callee} {x y : Expr} {rest : List Expr}
    (hf : callee.intrinsic? = some .cast) (hy : ∀ s, y ≠ const (.string s)) :
    Refused (call callee (x :: y :: rest)) .castTypeNotConstant
  | castType {callee : Callee} {x : Expr} {s : String} {rest : List Expr}
    (hf : callee.intrinsic? = some .cast) (hs : ∀ ty : LogicalType, ty.name ≠ s) :
    Refused (call callee (x :: const (.string s) :: rest)) (.unknownCastType s)
  | castSize {callee : Callee} {x y : Expr} {n : Int64} {rest : List Expr}
    (hf : callee.intrinsic? = some .cast) (hn : ¬ (0 ≤ n.toInt ∧ n.toInt ≤ 2 ^ 32 - 1)) :
    Refused (call callee (x :: y :: const (.int n) :: rest)) (.castSizeOutOfRange n)

/-- The reasons not to render the root of an expression. -/
def ownObjections (e : Expr) : Set Unsupported := {cause | e.Refused cause}

/-- The reasons not to render an expression. -/
def objections (e : Expr) : Set Unsupported :=
  {cause | ∃ x : Expr, x.RenderedIn e ∧ x.Refused cause}

def allObjections (items : List Expr) : Set Unsupported :=
  {cause | ∃ e ∈ items, cause ∈ e.objections}

@[simp] theorem allObjections_nil : allObjections [] = ∅ := by
  ext cause
  simp [allObjections]

@[simp] theorem allObjections_cons (e : Expr) (rest : List Expr) :
    allObjections (e :: rest) = e.objections ∪ allObjections rest := by
  ext cause
  simp [allObjections]

end Expr

def Value.objections (v : Value) : Set Unsupported :=
  {cause | v.HoldsRecord ∧ cause = .recordAsValue}

/-! ## The reasons of a node are its own and those of its parts -/

theorem Value.objections_eq_empty {v : Value} (h : ¬ v.HoldsRecord) : v.objections = ∅ :=
  Set.eq_empty_of_forall_notMem fun _ hc => h hc.1

theorem Value.objections_list (items : List Value) :
    (Value.list items).objections = {cause | ∃ v ∈ items, cause ∈ v.objections} := by
  ext cause
  constructor
  · rintro ⟨h, hc⟩
    cases h with
    | list hv h => exact ⟨_, hv, h, hc⟩
  · rintro ⟨v, hv, h, hc⟩
    exact ⟨.list hv h, hc⟩

theorem Value.objections_tuple (items : List Value) :
    (Value.tuple items).objections = {cause | ∃ v ∈ items, cause ∈ v.objections} := by
  ext cause
  constructor
  · rintro ⟨h, hc⟩
    cases h with
    | tuple hv h => exact ⟨_, hv, h, hc⟩
  · rintro ⟨v, hv, h, hc⟩
    exact ⟨.tuple hv h, hc⟩

namespace Expr

theorem objections_column (table : Table) (name : String) : (column table name).objections = ∅ := by
  refine Set.eq_empty_of_forall_notMem ?_
  rintro cause ⟨x, ⟨⟩, ⟨⟩⟩

theorem objections_const (v : Value) : (const v).objections = v.objections := by
  ext cause
  constructor
  · rintro ⟨x, ⟨⟩, ⟨h⟩⟩
    exact ⟨h, rfl⟩
  · rintro ⟨h, rfl⟩
    exact ⟨_, .root, .record h⟩

theorem objections_unary (op : UnaryOp) (e : Expr) :
    (unary op e).objections = e.objections := by
  ext cause
  constructor
  · rintro ⟨x, hx, hc⟩
    cases hx with
    | root => cases hc
    | operand h => exact ⟨x, h, hc⟩
  · rintro ⟨x, h, hc⟩
    exact ⟨x, .operand h, hc⟩

theorem objections_binary (op : BinaryOp) (l r : Expr) :
    (binary op l r).objections = l.objections ∪ r.objections := by
  ext cause
  constructor
  · rintro ⟨x, hx, hc⟩
    cases hx with
    | root => cases hc
    | left h => exact .inl ⟨x, h, hc⟩
    | right h => exact .inr ⟨x, h, hc⟩
  · rintro (⟨x, h, hc⟩ | ⟨x, h, hc⟩)
    · exact ⟨x, .left h, hc⟩
    · exact ⟨x, .right h, hc⟩

theorem objections_tuple (items : List Expr) :
    (tuple items).objections = allObjections items := by
  ext cause
  constructor
  · rintro ⟨x, hx, hc⟩
    cases hx with
    | root => cases hc
    | item he h => exact ⟨_, he, x, h, hc⟩
  · rintro ⟨e, he, x, h, hc⟩
    exact ⟨x, .item he h, hc⟩

theorem objections_call {callee : Callee} {f : Intrinsic} (hf : callee.intrinsic? = some f)
    (args : List Expr) :
    (call callee args).objections =
      (call callee args).ownObjections ∪ allObjections (f.rendered args) := by
  ext cause
  constructor
  · rintro ⟨x, hx, hc⟩
    cases hx with
    | root => exact .inl hc
    | argument hf' he h =>
      cases hf.symm.trans hf'
      exact .inr ⟨_, he, x, h, hc⟩
  · rintro (hc | ⟨e, he, x, h, hc⟩)
    · exact ⟨_, .root, hc⟩
    · exact ⟨x, .argument hf he h, hc⟩

/-- Only an alias or a cast can be refused for its own sake. -/
theorem objections_call_of_ne {callee : Callee} {f : Intrinsic} (hf : callee.intrinsic? = some f)
    (hnamed : f ≠ .named) (hcast : f ≠ .cast) (args : List Expr) :
    (call callee args).objections = allObjections args := by
  have hargs : f.rendered args = args := by
    cases f <;> first | rfl | contradiction
  have hnone : (call callee args).ownObjections = ∅ := by
    refine Set.eq_empty_of_forall_notMem ?_
    intro cause hc
    cases hc with
    | aliasName hf' => exact hnamed (Option.some.inj (hf.symm.trans hf'))
    | castTarget hf' | castType hf' | castSize hf' =>
      exact hcast (Option.some.inj (hf.symm.trans hf'))
  rw [objections_call hf, hargs, hnone, Set.empty_union]

end Expr

/-! ## Computations that fail for a reason -/

/-- Without reasons the computation succeeds; otherwise it fails for one of them. -/
def FailsFor {α : Type} (m : Binder α) (reasons : Set Unsupported) : Prop :=
  ∀ p, (reasons = ∅ ∧ ∃ a q, m.exec p = (.ok a, q)) ∨
    ∃ cause ∈ reasons, ∃ q, m.exec p = (.error (.unsupported cause), q)

namespace FailsFor

variable {α β : Type} {m : Binder α} {R S : Set Unsupported}

theorem pure (a : α) : FailsFor (Pure.pure a) ∅ := fun p => .inl ⟨rfl, a, p, rfl⟩

theorem refuse {cause : Unsupported} (h : cause ∈ R) : FailsFor (.refuse cause : Binder α) R :=
  fun p => .inr ⟨cause, h, p, rfl⟩

theorem bindValue (v : Value) : FailsFor (.bindValue v) ∅ :=
  fun p => .inl ⟨rfl, p.nextKey, p.push v, rfl⟩

theorem congr (h : FailsFor m R) (hRS : R = S) : FailsFor m S := hRS ▸ h

theorem bind {k : α → Binder β} (hm : FailsFor m R) (hk : ∀ a, FailsFor (k a) S) :
    FailsFor (m >>= k) (R ∪ S) := by
  intro p
  rcases hm p with ⟨hR, a, q, ha⟩ | ⟨cause, hc, q, he⟩
  · rw [Binder.exec_bind_ok ha, hR, Set.empty_union]
    exact hk a q
  · exact .inr ⟨cause, .inl hc, q, Binder.exec_bind_error he⟩

theorem map (hm : FailsFor m R) (f : α → β) : FailsFor (do return f (← m)) R :=
  (hm.bind fun a => pure (f a)).congr (Set.union_empty R)

theorem seq {γ : Type} {n : Binder β} (hm : FailsFor m R) (hn : FailsFor n S) (f : α → β → γ) :
    FailsFor (do
      let a ← m
      let b ← n
      return f a b) (R ∪ S) :=
  hm.bind fun a => hn.map (f a)

theorem mapM {ι : Type} {f : ι → Binder α} {reasons : ι → Set Unsupported} :
    ∀ (items : List ι), (∀ x ∈ items, FailsFor (f x) (reasons x)) →
      FailsFor (items.mapM f) {cause | ∃ x ∈ items, cause ∈ reasons x}
  | [], _ => (pure []).congr (by simp)
  | x :: rest, h => by
    obtain ⟨hx, hrest⟩ := List.forall_mem_cons.1 h
    rw [List.mapM_cons]
    refine (hx.seq (mapM rest hrest) List.cons).congr ?_
    ext cause
    simp

/-- Failing is having a reason. -/
theorem error_iff (h : FailsFor m R) (p : Parameters) :
    (∃ err q, m.exec p = (.error err, q)) ↔ R.Nonempty := by
  rcases h p with ⟨hR, a, q, ha⟩ | ⟨cause, hc, q, he⟩
  · rw [ha, hR]
    simp
  · exact ⟨fun _ => ⟨cause, hc⟩, fun _ => ⟨_, q, he⟩⟩

theorem error (h : FailsFor m R) {p q : Parameters} {err : Error}
    (he : m.exec p = (.error err, q)) : ∃ cause ∈ R, err = .unsupported cause := by
  rcases h p with ⟨-, a, q', ha⟩ | ⟨cause, hc, q', hq⟩
  · rw [ha] at he
    cases he
  · rw [hq] at he
    cases he
    exact ⟨cause, hc, rfl⟩

end FailsFor

end SqlCompose
