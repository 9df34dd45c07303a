/-
Reducing what is reduced already.

A normal expression is its own reduced form wherever it can stand, and nothing else is
(`Expr.reduce_eq_self_iff`). Reduction answers normal expressions, so reducing twice is
reducing once. And a node looks at its children through their reduced forms only, so what
a `Context` makes of the part in its hole depends on the reduced form of that part alone
(`Context.reduce_fill`). Hence any part can be reduced ahead of the whole
(`reduce_idempotent`).
-/
import SqlCompose.Expr.Build
import SqlCompose.Proofs.NormalForm

namespace SqlCompose

theorem Intrinsic.name_of_resolve? {declaring name : String} {f : Intrinsic}
    (h : resolve? declaring name = some f) : name = f.name := by
  unfold resolve? at h
  split at h
  · have := List.find?_some h
    exact (beq_iff_eq.1 this).symm
  · cases h

/-- A callee without a function of the host that stands for an intrinsic is that intrinsic's. -/
theorem Callee.eq_ofIntrinsic {c : Callee} {f : Intrinsic} (hd : c.declaring = Intrinsic.marker)
    (hh : c.host = none) (hf : c.intrinsic? = some f) : c = .ofIntrinsic f := by
  obtain ⟨declaring, name, host⟩ := c
  have hname : name = f.name := Intrinsic.name_of_resolve? hf
  subst hd hh hname
  rfl

namespace Expr

/-! ## Settled nodes stay as they are -/

theorem reduceColumn_of_normalAt {p : Position} {table : Table} {name : String}
    (h : NormalAt p (column table name)) :
    reduceColumn p table name = .ok (column table name) := by
  obtain ⟨hfield, hflag⟩ := h
  obtain ⟨f, hf⟩ := Option.isSome_iff_exists.1 hfield
  unfold reduceColumn
  rw [hf]
  refine if_neg ?_
  rintro ⟨hty, hp⟩
  have hflag := hflag hp
  simp [isFlag, Table.isFlag, hf, hty] at hflag

theorem reduceNot_of_settled {e : Expr} (h : Settled (unary .not e)) :
    e.reduceNot = unary .not e := by
  obtain ⟨hcomparison, hbool, -⟩ := h
  unfold reduceNot
  split
  · next op l r =>
    have hinv : op.inverse? = none := by
      rw [← Option.isNone_iff_eq_none, ← Option.not_isSome, BinaryOp.inverse?_isSome]
      simpa [isComparison] using hcomparison
    rw [hinv]
  · cases hbool
  · rfl

theorem reduceNeg_of_settled {e : Expr} (h : Settled (unary .neg e)) :
    e.reduceNeg = .ok (unary .neg e) := by
  unfold reduceNeg
  split
  · cases h
  · cases h
  · cases h
  · rfl

theorem reduceBinary_of_settled {op : BinaryOp} {l r : Expr} (h : Settled (binary op l r)) :
    reduceBinary op l r = .ok (binary op l r) := by
  unfold reduceBinary
  split
  · next hlogical =>
    simp only [Settled, hlogical, if_true] at h
    obtain ⟨⟨hl, -⟩, ⟨hr, -⟩⟩ := h
    rw [reduceLogical, hl, hr]
  · next hlogical =>
    simp only [Settled, hlogical] at h
    split
    · next a b =>
      split
      · rfl
      · next hraw =>
        obtain ⟨ha, hb⟩ : a.isRaw = false ∧ b.isRaw = false := by simpa using hraw
        split
        · next hcomparison =>
          simp only [hcomparison, if_true] at h
          rw [reduceComparison, h a b rfl rfl ha hb]
        · next hcomparison =>
          simp [hcomparison, isKnown, ha, hb] at h
    · rfl

theorem constants?_eq_none : ∀ {items : List Expr}, (∃ e ∈ items, e.asConst? = none) →
    constants? items = none
  | [], h => by simp at h
  | e :: rest, h => by
    cases hc : constants? (e :: rest) with
    | none => rfl
    | some vs =>
      obtain ⟨v, ws, rfl, hws, -⟩ := constants?_cons hc
      obtain ⟨x, hx, hnone⟩ := h
      rcases List.mem_cons.1 hx with rfl | hx
      · cases hnone
      · rw [constants?_eq_none ⟨x, hx, hnone⟩] at hws
        cases hws

/-! ## Normal expressions stay as they are -/

mutual

theorem reduce_of_normalAt : ∀ (e : Expr) (p : Position), NormalAt p e → e.reduce p = .ok e
  | .const v, _, _ => rfl
  | .column table name, p, h => reduceColumn_of_normalAt h
  | .member _ _, _, h => h.1.elim
  | .unary .not e, _, ⟨⟨hs, hn⟩, _⟩ => by
    have he := reduce_of_normalAt e .predicate ⟨hn, fun _ => hs.2.2⟩
    simp only [reduce, UnaryOp.operandPosition, he, reduceUnary]
    exact congrArg Except.ok (reduceNot_of_settled hs)
  | .unary .neg e, _, ⟨⟨hs, hn⟩, _⟩ => by
    have he := reduce_of_normalAt e .value ⟨hn, nofun⟩
    simp only [reduce, UnaryOp.operandPosition, he, reduceUnary]
    exact reduceNeg_of_settled hs
  | .binary op l r, _, ⟨⟨hs, hl, hr⟩, _⟩ => by
    -- AND and OR want conditions, and their operands are no bare Boolean columns.
    have hflags : op.operandPosition = .predicate → l.isFlag = false ∧ r.isFlag = false := by
      intro hp
      have hlogical : op.isLogical = true := by
        cases hop : op.isLogical with
        | true => rfl
        | false => simp [BinaryOp.operandPosition, hop] at hp
      simp only [Settled, hlogical, if_true] at hs
      exact ⟨hs.1.2, hs.2.2⟩
    have hl := reduce_of_normalAt l op.operandPosition ⟨hl, fun hp => (hflags hp).1⟩
    have hr := reduce_of_normalAt r op.operandPosition ⟨hr, fun hp => (hflags hp).2⟩
    simp only [reduce, hl, hr]
    exact reduceBinary_of_settled hs
  | .call callee args, _, ⟨⟨⟨hd, hh, f, hf, hcount⟩, hargs⟩, _⟩ => by
    have hargs := reduceAll_of_allNormal args hargs
    simp only [reduce, hf, hargs]
    change reduceIntrinsic f args = _
    rw [reduceIntrinsic, if_pos hcount, Callee.eq_ofIntrinsic hd hh hf]
    rfl
  | .tuple items, _, ⟨⟨hs, hitems⟩, _⟩ => by
    have hitems := reduceAll_of_allNormal items hitems
    simp only [reduce, hitems]
    change Except.ok (reduceTuple items) = _
    rw [reduceTuple, constants?_eq_none hs]

theorem reduceAll_of_allNormal : ∀ items : List Expr, AllNormal items →
    reduceAll items = .ok items
  | [], _ => rfl
  | e :: rest, h => by
    have he := reduce_of_normalAt e .value ⟨h.1, nofun⟩
    have hrest := reduceAll_of_allNormal rest h.2
    simp only [reduceAll, he, hrest]
    rfl

end

/-- **Only normal expressions are their own reduced forms.** -/
theorem reduce_eq_self_iff (e : Expr) (p : Position) : e.reduce p = .ok e ↔ NormalAt p e :=
  ⟨normalAt_reduce e p, reduce_of_normalAt e p⟩

end Expr

/-! ## Parts of an expression -/

/-- An expression with a hole for one of its parts. -/
inductive Context where
  | hole
  | member (c : Context) (name : String)
  | unary (op : UnaryOp) (c : Context)
  | left (op : BinaryOp) (c : Context) (rhs : Expr)
  | right (op : BinaryOp) (lhs : Expr) (c : Context)
  | argument (callee : Callee) (before : List Expr) (c : Context) (after : List Expr)
  | item (before : List Expr) (c : Context) (after : List Expr)

namespace Context

/-- The expression with that part in the hole. -/
def fill (x : Expr) : Context → Expr
  | hole => x
  | member c name => .member (c.fill x) name
  | unary op c => .unary op (c.fill x)
  | left op c rhs => .binary op (c.fill x) rhs
  | right op lhs c => .binary op lhs (c.fill x)
  | argument callee before c after => .call callee (before ++ c.fill x :: after)
  | item before c after => .tuple (before ++ c.fill x :: after)

def position (p : Position) : Context → Position
  | hole => p
  | member c _ => c.position .value
  | unary op c => c.position op.operandPosition
  | left op c _ | right op _ c => c.position op.operandPosition
  | argument _ _ c _ | item _ c _ => c.position .value

end Context

theorem Expr.reduceAll_congr {x y : Expr} (h : x.reduce .value = y.reduce .value)
    (before after : List Expr) :
    reduceAll (before ++ x :: after) = reduceAll (before ++ y :: after) := by
  induction before with
  | nil => simp only [List.nil_append, reduceAll, h]
  | cons e before ih => simp only [List.cons_append, reduceAll, ih]

/-- The whole depends on a part through the part's reduced form alone. -/
theorem Context.reduce_fill (c : Context) {x y : Expr} {p : Position}
    (h : x.reduce (c.position p) = y.reduce (c.position p)) :
    (c.fill x).reduce p = (c.fill y).reduce p := by
  induction c generalizing p with
  | hole => exact h
  | member c name ih => simp only [fill, Expr.reduce, ih h]
  | unary op c ih => simp only [fill, Expr.reduce, ih h]
  | left op c rhs ih => simp only [fill, Expr.reduce, ih h]
  | right op lhs c ih => simp only [fill, Expr.reduce, ih h]
  | argument callee before c after ih =>
    simp only [fill, Expr.reduce, Expr.reduceAll_congr (ih h)]
  | item before c after ih => simp only [fill, Expr.reduce, Expr.reduceAll_congr (ih h)]

/-- **Reducing twice is reducing once.** A reduced expression is its own reduced form, where it stands
and as a value, so reducing a part ahead of the whole changes nothing, errors included. -/
theorem reduce_idempotent {e e' : Expr} {p : Position} (h : e.reduce p = .ok e') :
    e'.reduce p = .ok e' ∧ e'.reduce .value = .ok e' ∧
      ∀ (c : Context) (q : Position), c.position q = p →
        (c.fill e').reduce q = (c.fill e).reduce q := by
  have hnormal := Expr.normalAt_reduce e p h
  have hself := (Expr.reduce_eq_self_iff e' p).2 hnormal
  refine ⟨hself, (Expr.reduce_eq_self_iff e' .value).2 ⟨hnormal.1, nofun⟩, ?_⟩
  rintro c q rfl
  exact c.reduce_fill (hself.trans h.symm)

/-- The operand that is left of an AND stands as a condition, and can stand in another one. -/
theorem reduce_idempotent_dropped_operand :
    let people : Table := ⟨"Person", "Person", [{ name := "Active", ty := .boolean }]⟩
    let active := people.col "Active"
    let e : Expr := .unary .not (.binary .and (.binary .lt (.const (.int 1)) (.const (.int 2))) active)
    let e' : Expr := .binary .ne active (.const (.bool true))
    let c : Context := .item [.const (.int 1)] (.left .or .hole active) []
    e.reduce .predicate = .ok e' ∧ e'.reduce .value = .ok e' ∧
      (c.fill e').reduce .value = (c.fill e).reduce .value ∧
      (c.fill e).reduce .value = .ok (.tuple [.const (.int 1),
        .binary .or e' (.binary .eq active (.const (.bool true)))]) := by
  intro people active e e' c
  have h : e.reduce .predicate = .ok e' := rfl
  obtain ⟨-, hvalue, hfill⟩ := reduce_idempotent h
  exact ⟨h, hvalue, hfill c .value rfl, rfl⟩

end SqlCompose
