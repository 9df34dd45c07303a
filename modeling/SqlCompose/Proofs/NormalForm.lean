/-
What a reduced expression looks like.

`Expr.Settled` says of one node that reduction has left nothing to do there, and
`Expr.Normal` that this holds at every depth. Each `reduce…` function is shown to
answer a normal expression for normal operands, so `Expr.reduce` always does
(`reduce_normal`). A Boolean column by itself is settled as a value only: operands of
AND, OR and NOT are conditions, and there it is compared with true.
-/
import SqlCompose.Expr.Build
import SqlCompose.Proofs.ReduceMeaning

namespace SqlCompose

namespace Expr

/-! ## Normal expressions -/

def isComparison : Expr → Bool
  | binary op _ _ => op.isComparison
  | _ => false

/-- A Boolean column by itself. -/
def isFlag : Expr → Bool
  | column table name => table.isFlag name
  | _ => false

def isNumber : Expr → Bool
  | const (.int _) | const (.float _) | const (.decimal _) => true
  | _ => false

/-- A constant that can be computed with, which null and literal SQL are not. -/
def isKnown : Expr → Bool
  | const v => !v.isRaw
  | _ => false

/-- Nothing is left to do at the root, whatever is below it. -/
def Settled : Expr → Prop
  | column table name => (table.field? name).isSome = true
  | member _ _ => False
  | const _ => True
  | binary op l r =>
    if op.isLogical then
      (l.asBool? = none ∧ l.isFlag = false) ∧ (r.asBool? = none ∧ r.isFlag = false)
    else if op.isComparison then
      ∀ a b, l = const a → r = const b → a.isRaw = false → b.isRaw = false →
        Value.decide? op a b = none
    else l.isKnown = false ∨ r.isKnown = false
  | unary .not e => e.isComparison = false ∧ e.asBool? = none ∧ e.isFlag = false
  | unary .neg e => e.isNumber = false
  | call callee args =>
    callee.declaring = Intrinsic.marker ∧ callee.host = none ∧
      ∃ f, callee.intrinsic? = some f ∧ f.accepts args.length = true
  | tuple items => ∃ e ∈ items, e.asConst? = none

mutual

/-- Nothing is left to do at any depth. -/
def Normal : Expr → Prop
  | column table name => Settled (column table name)
  | member base name => Settled (member base name)
  | const v => Settled (const v)
  | binary op l r => Settled (binary op l r) ∧ Normal l ∧ Normal r
  | unary op e => Settled (unary op e) ∧ Normal e
  | call callee args => Settled (call callee args) ∧ AllNormal args
  | tuple items => Settled (tuple items) ∧ AllNormal items

def AllNormal : List Expr → Prop
  | [] => True
  | e :: rest => Normal e ∧ AllNormal rest

end

/-- A normal expression that stands at `p`. -/
def NormalAt (p : Position) (e : Expr) : Prop := e.Normal ∧ (p = .predicate → e.isFlag = false)

theorem normal_const (v : Value) : (const v).Normal := trivial

theorem normalAt_const (p : Position) (v : Value) : NormalAt p (const v) :=
  ⟨normal_const v, fun _ => rfl⟩

/-! ## One node at a time -/

theorem normalAt_reduceColumn {p : Position} {table : Table} {name : String} {e' : Expr}
    (h : reduceColumn p table name = .ok e') : NormalAt p e' := by
  unfold reduceColumn at h
  split at h
  · cases h
  next f hf =>
  have hcolumn : (column table name).Normal := by simp [Normal, Settled, hf]
  split at h
  · cases h
    refine ⟨⟨?_, hcolumn, normal_const _⟩, fun _ => rfl⟩
    intro a b ha
    cases ha
  · next hp =>
    cases h
    refine ⟨hcolumn, fun hpred => ?_⟩
    have hty : f.ty ≠ .boolean := fun hb => hp ⟨hb, hpred⟩
    simp [isFlag, Table.isFlag, hf, hty]

theorem exists_const_of_reduceMember {name : String} {base e' : Expr}
    (h : reduceMember name base = .ok e') : ∃ v, e' = const v := by
  unfold reduceMember at h
  split at h
  · split at h <;> cases h
    exact ⟨_, rfl⟩
  · cases h

theorem settled_inverse {op inv : BinaryOp} {l r : Expr} (hinv : op.inverse? = some inv)
    (h : Settled (binary op l r)) : Settled (binary inv l r) := by
  obtain ⟨hl, hc, hil, hic⟩ := BinaryOp.kind_of_inverse? hinv
  simp only [Settled, hl, hc, hil, hic, Bool.false_eq_true, if_false, if_true] at h ⊢
  intro a b ha hb hraw hraw'
  rw [Value.decide?_inverse? hinv, h a b ha hb hraw hraw']
  rfl

theorem normalAt_reduceNot {e : Expr} (h : NormalAt .predicate e) (p : Position) :
    NormalAt p e.reduceNot := by
  obtain ⟨hn, hflag⟩ := h
  unfold reduceNot
  split
  next op l r =>
    split
    · next inv hinv => exact ⟨⟨settled_inverse hinv hn.1, hn.2⟩, fun _ => rfl⟩
    · next hinv =>
      have hop : op.isComparison = false := by
        rw [← BinaryOp.inverse?_isSome, hinv]
        rfl
      exact ⟨⟨⟨hop, rfl, rfl⟩, hn⟩, fun _ => rfl⟩
  next b => exact normalAt_const p _
  next hbinary hbool =>
    refine ⟨⟨⟨?_, ?_, hflag rfl⟩, hn⟩, fun _ => rfl⟩
    · cases e <;> first | rfl | exact absurd rfl (hbinary _ _ _)
    · cases e with
      | const v => cases v <;> first | rfl | exact absurd rfl (hbool _)
      | _ => rfl

theorem normalAt_reduceNeg {e e' : Expr} (hn : e.Normal) (h : e.reduceNeg = .ok e')
    (p : Position) : NormalAt p e' := by
  unfold reduceNeg at h
  split at h
  · split at h <;> cases h
    exact normalAt_const p _
  · cases h
    exact normalAt_const p _
  · cases h
    exact normalAt_const p _
  · next hint hfloat hdecimal =>
    cases h
    refine ⟨⟨?_, hn⟩, fun _ => rfl⟩
    rw [Settled]
    unfold isNumber
    split
    · exact absurd rfl (hint _)
    · exact absurd rfl (hfloat _)
    · exact absurd rfl (hdecimal _)
    · rfl

/-- AND and OR answer a constant, one of their operands, or a node that keeps both. -/
theorem normalAt_reduceLogical {op : BinaryOp} (hop : op.isLogical = true) {l r : Expr}
    (hl : NormalAt .predicate l) (hr : NormalAt .predicate r) (p : Position) :
    NormalAt p (reduceLogical op l r) := by
  have operand : ∀ {e : Expr}, NormalAt .predicate e → NormalAt p e :=
    fun he => ⟨he.1, fun _ => he.2 rfl⟩
  unfold reduceLogical
  cases hlb : l.asBool? with
  | none =>
    cases hrb : r.asBool? with
    | none =>
      refine ⟨⟨?_, hl.1, hr.1⟩, fun _ => rfl⟩
      rw [Settled, if_pos hop]
      exact ⟨⟨hlb, hl.2 rfl⟩, ⟨hrb, hr.2 rfl⟩⟩
    | some c =>
      simp only
      split
      · exact normalAt_const p _
      · exact operand hl
  | some b =>
    cases hrb : r.asBool? with
    | none =>
      simp only
      split
      · exact normalAt_const p _
      · exact operand hr
    | some c =>
      simp only
      split
      · exact normalAt_const p _
      split
      · exact normalAt_const p _
      · exact operand hr

theorem normalAt_reduceComparison {op : BinaryOp} (hl : op.isLogical = false)
    (hc : op.isComparison = true) (a b : Value) (p : Position) :
    NormalAt p (reduceComparison op a b) := by
  unfold reduceComparison
  split
  · exact normalAt_const p _
  · next hnone =>
    refine ⟨⟨?_, normal_const a, normal_const b⟩, fun _ => rfl⟩
    simp only [Settled, hl, hc, Bool.false_eq_true, if_false, if_true]
    rintro _ _ ⟨⟩ ⟨⟩ _ _
    exact hnone

/-- A comparison or an arithmetic operator stays unless both operands are known. -/
theorem settled_binary {op : BinaryOp} (hop : op.isLogical = false) {l r : Expr}
    (h : l.isKnown = false ∨ r.isKnown = false) : Settled (binary op l r) := by
  simp only [Settled, hop, Bool.false_eq_true, if_false]
  split
  · rintro a b rfl rfl ha hb
    simp [isKnown, ha, hb] at h
  · exact h

theorem normalAt_reduceBinary {op : BinaryOp} (hop : op.isLogical = false) {l r e' : Expr}
    (hl : l.Normal) (hr : r.Normal) (h : reduceBinary op l r = .ok e') (p : Position) :
    NormalAt p e' := by
  have kept : l.isKnown = false ∨ r.isKnown = false → NormalAt p (binary op l r) :=
    fun hk => ⟨⟨settled_binary hop hk, hl, hr⟩, fun _ => rfl⟩
  simp only [reduceBinary, hop, Bool.false_eq_true, if_false] at h
  split at h
  next a b =>
    split at h
    · next hraw =>
      cases h
      exact kept (by simpa [isKnown] using hraw)
    · split at h
      · next hc =>
        cases h
        exact normalAt_reduceComparison hop hc a b p
      · obtain ⟨v, rfl⟩ : ∃ v, const v = e' := by
          cases hf : Value.fold op a b with
          | error err => rw [hf] at h; cases h
          | ok v => rw [hf] at h; cases h; exact ⟨v, rfl⟩
        exact normalAt_const p v
  next hconst =>
    cases h
    refine kept ?_
    cases l with
    | const a =>
      cases r with
      | const b => exact absurd rfl (hconst a b rfl)
      | _ => exact .inr rfl
    | _ => exact .inl rfl

theorem normalAt_reduceIntrinsic {f : Intrinsic} {args : List Expr} {e' : Expr}
    (hargs : AllNormal args) (h : reduceIntrinsic f args = .ok e') (p : Position) :
    NormalAt p e' := by
  unfold reduceIntrinsic at h
  split at h <;> cases h
  next hcount =>
  exact ⟨⟨⟨rfl, rfl, f, Callee.intrinsic?_ofIntrinsic f, hcount⟩, hargs⟩, fun _ => rfl⟩

theorem exists_const_of_reduceHostCall {name : String} {host : HostFn} {args : List Expr}
    {e' : Expr} (h : reduceHostCall name host args = .ok e') : ∃ v, e' = const v := by
  unfold reduceHostCall at h
  split at h
  · cases h
  · split at h <;> cases h
    exact ⟨_, rfl⟩

theorem exists_of_constants?_eq_none {items : List Expr} (h : constants? items = none) :
    ∃ e ∈ items, e.asConst? = none := by
  induction items with
  | nil => cases h
  | cons e rest ih =>
    cases he : e.asConst? with
    | none => exact ⟨e, by simp, he⟩
    | some v =>
      have hrest : constants? rest = none := by
        simp only [constants?, List.mapM_cons, he] at h ⊢
        cases hm : rest.mapM asConst? with
        | none => rfl
        | some vs => rw [hm] at h; cases h
      obtain ⟨x, hx, hnone⟩ := ih hrest
      exact ⟨x, by simp [hx], hnone⟩

theorem normalAt_reduceTuple {items : List Expr} (hitems : AllNormal items) (p : Position) :
    NormalAt p (reduceTuple items) := by
  unfold reduceTuple
  split
  · exact normalAt_const p _
  · next h => exact ⟨⟨exists_of_constants?_eq_none h, hitems⟩, fun _ => rfl⟩

/-! ## The whole expression -/

mutual

theorem normalAt_reduce : ∀ (e : Expr) (p : Position) {e' : Expr}, e.reduce p = .ok e' →
    NormalAt p e'
  | .const v, p, e', h => by
    cases h
    exact normalAt_const p v
  | .column table name, p, e', h => normalAt_reduceColumn h
  | .member base name, p, e', h => by
    simp only [reduce, bind_eq_ok] at h
    obtain ⟨base', -, h⟩ := h
    obtain ⟨v, rfl⟩ := exists_const_of_reduceMember h
    exact normalAt_const p v
  | .unary .not e, p, e', h => by
    simp only [reduce, bind_eq_ok] at h
    obtain ⟨x, hx, h⟩ := h
    cases h
    exact normalAt_reduceNot (normalAt_reduce e .predicate hx) p
  | .unary .neg e, p, e', h => by
    simp only [reduce, bind_eq_ok] at h
    obtain ⟨x, hx, h⟩ := h
    exact normalAt_reduceNeg (normalAt_reduce e .value hx).1 h p
  | .binary op l r, p, e', h => by
    simp only [reduce, bind_eq_ok] at h
    obtain ⟨l', hl, r', hr, h⟩ := h
    have hl := normalAt_reduce l _ hl
    have hr := normalAt_reduce r _ hr
    cases hop : op.isLogical with
    | true =>
      simp only [BinaryOp.operandPosition, hop, if_true] at hl hr
      simp only [reduceBinary, hop, if_true, Except.ok.injEq] at h
      subst h
      exact normalAt_reduceLogical hop hl hr p
    | false => exact normalAt_reduceBinary hop hl.1 hr.1 h p
  | .call callee args, p, e', h => by
    simp only [reduce] at h
    split at h
    · simp only [bind_eq_ok] at h
      obtain ⟨args', hargs, h⟩ := h
      exact normalAt_reduceIntrinsic (allNormal_reduceAll args hargs) h p
    · simp only [bind_eq_ok] at h
      obtain ⟨args', -, h⟩ := h
      obtain ⟨v, rfl⟩ := exists_const_of_reduceHostCall h
      exact normalAt_const p v
    · cases h
  | .tuple items, p, e', h => by
    simp only [reduce, bind_eq_ok] at h
    obtain ⟨items', hitems, h⟩ := h
    cases h
    exact normalAt_reduceTuple (allNormal_reduceAll items hitems) p

theorem allNormal_reduceAll : ∀ (items : List Expr) {items' : List Expr},
    reduceAll items = .ok items' → AllNormal items'
  | [], items', h => by
    cases h
    trivial
  | e :: rest, items', h => by
    simp only [reduceAll, bind_eq_ok] at h
    obtain ⟨e', he, rest', hrest, h⟩ := h
    cases h
    exact ⟨(normalAt_reduce e .value he).1, allNormal_reduceAll rest hrest⟩

end

end Expr

/-- **Reduced expressions are normal.** Nothing is left to do at any depth, and what stands as a
condition is not a Boolean column by itself. -/
theorem reduce_normal {e e' : Expr} {p : Position} (h : e.reduce p = .ok e') :
    e'.Normal ∧ (p = .predicate → e'.isFlag = false) :=
  Expr.normalAt_reduce e p h

/-- What is left of an operand of AND under NOT is a comparison, which is inverted. -/
theorem reduce_normal_dropped_operand :
    let people : Table := ⟨"Person", "Person", [{ name := "Active", ty := .boolean }]⟩
    let e : Expr := .unary .not (.binary .and (.binary .lt (.const (.int 1)) (.const (.int 2)))
      (people.col "Active"))
    let e' : Expr := .binary .ne (people.col "Active") (.const (.bool true))
    e.reduce .predicate = .ok e' ∧ e'.Normal ∧ e'.isFlag = false := by
  intro people e e'
  have h : e.reduce .predicate = .ok e' := rfl
  obtain ⟨hnormal, hflag⟩ := reduce_normal h
  exact ⟨h, hnormal, hflag rfl⟩

end SqlCompose
