/-
Folding integers.

A tree of 64-bit constants, sums, differences, products, quotients, remainders and negations has a
value among all integers, unless it divides by zero (`IntTree.value?`). Reduction answers exactly
that value, or it refuses the tree; it never wraps. It refuses a tree if and only if one of its
subtrees is at fault (`IntTree.reduce_integers`): its value does not fit into 64 bits, its divisor
is zero, or it takes the remainder of the least integer by minus one, whose quotient would not fit.
-/
import Mathlib.Algebra.Group.Int.Defs
import SqlCompose.Expr.Reduce

namespace SqlCompose

/-! ## Integers of 64 bits -/

/-- Too small or too large for 64 bits. -/
def Oversized (v : Int) : Prop := v < -2 ^ 63 ∨ 2 ^ 63 - 1 < v

theorem not_oversized_toInt (n : Int64) : ¬ Oversized n.toInt := by
  have hlow := n.le_toInt
  have hhigh := n.toInt_lt
  unfold Oversized
  omega

theorem int64?_cases (v : Int) :
    (∃ n, int64? v = some n ∧ n.toInt = v) ∨ (int64? v = none ∧ Oversized v) := by
  have hmin : Int64.minValue.toInt = -2 ^ 63 := by decide
  have hmax : Int64.maxValue.toInt = 2 ^ 63 - 1 := by decide
  unfold int64? Oversized
  rw [hmin, hmax]
  split
  · next h => exact .inl ⟨_, rfl, Int64.toInt_ofInt_of_le h.1 (by omega)⟩
  · next h => exact .inr ⟨rfl, by omega⟩

/-! ## Arithmetic among all integers -/

inductive IntOp where
  | add | sub | mul | div | rem
  deriving DecidableEq, Repr

namespace IntOp

def toBinaryOp : IntOp → BinaryOp
  | add => .add
  | sub => .sub
  | mul => .mul
  | div => .div
  | rem => .rem

def hasDivisor : IntOp → Bool
  | div | rem => true
  | add | sub | mul => false

/-- The result among all integers. Quotients go toward zero, remainders have the sign of the
dividend, and a divisor of zero has neither. -/
def result? (op : IntOp) (a b : Int) : Option Int :=
  match op with
  | add => some (a + b)
  | sub => some (a - b)
  | mul => some (a * b)
  | div => if b = 0 then none else some (a.tdiv b)
  | rem => if b = 0 then none else some (a.tmod b)

/-- The remainder that is refused with the quotient it belongs to. -/
def IsLeastRemainder (op : IntOp) (a b : Int) : Prop := op = rem ∧ a = -2 ^ 63 ∧ b = -1

/-- Folding answers the result where it fits. Otherwise there is none, it is oversized, or it is
the remainder that is refused. -/
theorem intArith_cases (op : IntOp) (a b : Int) :
    (∃ n, intArith op.toBinaryOp a b = some n ∧ op.result? a b = some n.toInt ∧
      ¬ (op.hasDivisor = true ∧ b = 0) ∧ ¬ op.IsLeastRemainder a b) ∨
    (intArith op.toBinaryOp a b = none ∧
      ((op.hasDivisor = true ∧ b = 0) ∨ op.IsLeastRemainder a b ∨
        ∃ v, op.result? a b = some v ∧ Oversized v)) := by
  have hmin : Int64.minValue.toInt = -2 ^ 63 := by decide
  cases op with
  | add | sub | mul =>
    simp only [toBinaryOp, intArith, result?, hasDivisor, IsLeastRemainder]
    rcases int64?_cases _ with ⟨n, hn, hv⟩ | ⟨hn, hv⟩
    · exact .inl ⟨n, hn, by rw [hv], by simp, by simp⟩
    · exact .inr ⟨hn, .inr (.inr ⟨_, rfl, hv⟩)⟩
  | div =>
    simp only [toBinaryOp, intArith, result?, hasDivisor, IsLeastRemainder]
    by_cases hb : b = 0
    · exact .inr ⟨by rw [if_pos hb], .inl ⟨trivial, hb⟩⟩
    · simp only [if_neg hb]
      rcases int64?_cases (a.tdiv b) with ⟨n, hn, hv⟩ | ⟨hn, hv⟩
      · exact .inl ⟨n, hn, by rw [hv], by simp [hb], by simp⟩
      · exact .inr ⟨hn, .inr (.inr ⟨_, rfl, hv⟩)⟩
  | rem =>
    simp only [toBinaryOp, intArith, result?, hasDivisor, IsLeastRemainder, hmin]
    by_cases hb : b = 0
    · exact .inr ⟨by rw [if_pos (.inl hb)], .inl ⟨trivial, hb⟩⟩
    by_cases hleast : a = -2 ^ 63 ∧ b = -1
    · exact .inr ⟨by rw [if_pos (.inr hleast)], .inr (.inl ⟨trivial, hleast⟩)⟩
    · rw [if_neg (not_or.2 ⟨hb, hleast⟩), if_neg hb]
      rcases int64?_cases (a.tmod b) with ⟨n, hn, hv⟩ | ⟨hn, hv⟩
      · exact .inl ⟨n, hn, by rw [hv], by simp [hb], by simpa using hleast⟩
      · exact .inr ⟨hn, .inr (.inr ⟨_, rfl, hv⟩)⟩

theorem reduceBinary_eq (op : IntOp) (a b : Int64) :
    Expr.reduceBinary op.toBinaryOp (.const (.int a)) (.const (.int b)) =
      match intArith op.toBinaryOp a.toInt b.toInt with
      | some n => .ok (.const (.int n))
      | none => .error (.unsupported (.cannotFold op.toBinaryOp (.int a) (.int b))) := by
  have hfold : Expr.reduceBinary op.toBinaryOp (.const (.int a)) (.const (.int b)) =
      (Value.arithmetic op.toBinaryOp (.int a) (.int b)).map .const := by
    cases op <;> rfl
  rw [hfold, Value.arithmetic]
  cases intArith op.toBinaryOp a.toInt b.toInt <;> rfl

end IntOp

/-! ## Trees -/

/-- Integer constants under arithmetic. -/
inductive IntTree where
  | const (n : Int64)
  | neg (t : IntTree)
  | node (op : IntOp) (l r : IntTree)
  deriving DecidableEq, Repr

namespace IntTree

def toExpr : IntTree → Expr
  | const n => .const (.int n)
  | neg t => .unary .neg t.toExpr
  | node op l r => .binary op.toBinaryOp l.toExpr r.toExpr

/-- The value among all integers. There is none where something is divided by zero. -/
def value? : IntTree → Option Int
  | const n => some n.toInt
  | neg t => t.value?.map (-·)
  | node op l r => do op.result? (← l.value?) (← r.value?)

def subtrees : IntTree → List IntTree
  | const n => [const n]
  | neg t => neg t :: t.subtrees
  | node op l r => node op l r :: (l.subtrees ++ r.subtrees)

/-- A tree that cannot be folded because of its root. -/
inductive AtFault : IntTree → Prop
  | oversized {t : IntTree} {v : Int} (hv : t.value? = some v) (h : Oversized v) : AtFault t
  | zeroDivisor {op : IntOp} {l r : IntTree} (hop : op.hasDivisor = true)
    (hr : r.value? = some 0) : AtFault (node op l r)
  | leastRemainder {l r : IntTree} (hl : l.value? = some (-2 ^ 63)) (hr : r.value? = some (-1)) :
    AtFault (node .rem l r)

/-- What reduction makes of a tree: the constant of its value if nothing in it is at fault, and else
an error. -/
inductive FoldsTo (t : IntTree) : Except Error Expr → Prop
  | value {n : Int64} (hv : t.value? = some n.toInt) (h : ∀ s ∈ t.subtrees, ¬ s.AtFault) :
    FoldsTo t (.ok (.const (.int n)))
  | refused {s : IntTree} (cause : Unsupported) (hs : s ∈ t.subtrees) (h : s.AtFault) :
    FoldsTo t (.error (.unsupported cause))

theorem foldsTo_const (n : Int64) : FoldsTo (const n) (.ok (.const (.int n))) := by
  refine .value rfl fun s hs => ?_
  obtain rfl : s = const n := List.mem_singleton.1 hs
  rintro ⟨hv, h⟩
  cases hv
  exact not_oversized_toInt n h

theorem foldsTo_neg {t : IntTree} {n : Int64} (hv : t.value? = some n.toInt)
    (h : ∀ s ∈ t.subtrees, ¬ s.AtFault) :
    FoldsTo (neg t) (Expr.reduceNeg (.const (.int n))) := by
  have hvalue : (neg t).value? = some (-n.toInt) := by simp [value?, hv]
  rw [Expr.reduceNeg]
  rcases int64?_cases (-n.toInt) with ⟨m, hm, heq⟩ | ⟨hm, hover⟩
  · rw [hm]
    refine .value (by rw [hvalue, heq]) (List.forall_mem_cons.2 ⟨?_, h⟩)
    rintro ⟨hv', hover⟩
    rw [hvalue] at hv'
    cases hv'
    exact not_oversized_toInt m (heq ▸ hover)
  · rw [hm]
    exact .refused _ List.mem_cons_self (.oversized hvalue hover)

theorem foldsTo_node (op : IntOp) {l r : IntTree} {a b : Int64} (ha : l.value? = some a.toInt)
    (hb : r.value? = some b.toInt) (hl : ∀ s ∈ l.subtrees, ¬ s.AtFault)
    (hr : ∀ s ∈ r.subtrees, ¬ s.AtFault) :
    FoldsTo (node op l r)
      (Expr.reduceBinary op.toBinaryOp (.const (.int a)) (.const (.int b))) := by
  have hvalue : (node op l r).value? = op.result? a.toInt b.toInt := by simp [value?, ha, hb]
  rw [op.reduceBinary_eq]
  rcases op.intArith_cases a.toInt b.toInt with ⟨n, hn, heq, hzero, hleast⟩ | ⟨hn, hfault⟩
  · rw [hn]
    refine .value (hvalue.trans heq)
      (List.forall_mem_cons.2 ⟨?_, List.forall_mem_append.2 ⟨hl, hr⟩⟩)
    intro hroot
    cases hroot with
    | oversized hv hover =>
      rw [hvalue, heq] at hv
      cases hv
      exact not_oversized_toInt n hover
    | zeroDivisor hop hzero' =>
      rw [hb] at hzero'
      exact hzero ⟨hop, Option.some.inj hzero'⟩
    | leastRemainder hl' hr' =>
      rw [ha] at hl'
      rw [hb] at hr'
      exact hleast ⟨rfl, Option.some.inj hl', Option.some.inj hr'⟩
  · rw [hn]
    refine .refused _ List.mem_cons_self ?_
    rcases hfault with ⟨hop, hzero⟩ | ⟨rfl, hl', hr'⟩ | ⟨v, hv, hover⟩
    · exact .zeroDivisor hop (by rw [hb, hzero])
    · exact .leastRemainder (by rw [ha, hl']) (by rw [hb, hr'])
    · exact .oversized (hvalue.trans hv) hover

/-- A tree whose operand is refused is refused. -/
theorem FoldsTo.bind {s t : IntTree} {r : Except Error Expr} {f : Expr → Except Error Expr}
    (h : s.FoldsTo r) (hsub : s.subtrees ⊆ t.subtrees)
    (hf : ∀ n : Int64, s.value? = some n.toInt → (∀ x ∈ s.subtrees, ¬ x.AtFault) →
      t.FoldsTo (f (.const (.int n)))) : t.FoldsTo (r >>= f) := by
  cases h with
  | value hv hs => exact hf _ hv hs
  | refused cause hs hfault => exact .refused cause (hsub hs) hfault

theorem foldsTo_reduce (t : IntTree) (p : Position) : t.FoldsTo (t.toExpr.reduce p) := by
  induction t generalizing p with
  | const n => exact foldsTo_const n
  | neg t ih => exact (ih .value).bind (List.subset_cons_self _ _) fun n => foldsTo_neg
  | node op l r ihl ihr =>
    have hleft : l.subtrees ⊆ (node op l r).subtrees :=
      fun s hs => List.mem_cons_of_mem _ (List.mem_append_left _ hs)
    have hright : r.subtrees ⊆ (node op l r).subtrees :=
      fun s hs => List.mem_cons_of_mem _ (List.mem_append_right _ hs)
    exact (ihl _).bind hleft fun a ha hl =>
      (ihr _).bind hright fun b hb hr => foldsTo_node op ha hb hl hr

/-- **Integers are folded exactly or not at all.** At any place, a tree is refused if and only if
some subtree is at fault, and otherwise reduces to the constant of its value among all integers. -/
theorem reduce_integers (t : IntTree) (p : Position) :
    ((∃ cause, t.toExpr.reduce p = .error (.unsupported cause)) ↔
      ∃ s ∈ t.subtrees, s.AtFault) ∧
    ((¬ ∃ s ∈ t.subtrees, s.AtFault) →
      ∃ n : Int64, t.toExpr.reduce p = .ok (.const (.int n)) ∧ t.value? = some n.toInt) := by
  generalize t.toExpr.reduce p = result, t.foldsTo_reduce p = h
  cases h with
  | value hv hnone =>
    have hno : ¬ ∃ s ∈ t.subtrees, s.AtFault := fun ⟨s, hs, hfault⟩ => hnone s hs hfault
    refine ⟨⟨?_, fun hfault => absurd hfault hno⟩, fun _ => ⟨_, rfl, hv⟩⟩
    rintro ⟨cause, herror⟩
    cases herror
  | refused cause hs hfault =>
    have hsome : ∃ s ∈ t.subtrees, s.AtFault := ⟨_, hs, hfault⟩
    exact ⟨⟨fun _ => hsome, fun _ => ⟨cause, rfl⟩⟩, fun hno => absurd hsome hno⟩

/-- The least integer is reached without fault. Its remainder by minus one is refused, though it is
zero. -/
theorem reduce_integers_least :
    let least : IntTree := node .sub (neg (const Int64.maxValue)) (const 1)
    let remainder : IntTree := node .rem least (const (-1))
    (¬ ∃ s ∈ least.subtrees, s.AtFault) ∧
      least.toExpr.reduce .value = .ok (.const (.int Int64.minValue)) ∧
      least.value? = some (-2 ^ 63) ∧ remainder.value? = some 0 ∧
      ∃ cause, remainder.toExpr.reduce .predicate = .error (.unsupported cause) := by
  intro least remainder
  have hreduce : least.toExpr.reduce .value = .ok (.const (.int Int64.minValue)) := rfl
  have hnone : ¬ ∃ s ∈ least.subtrees, s.AtFault := by
    rw [← (reduce_integers least .value).1, hreduce]
    simp
  obtain ⟨n, hn, hvalue⟩ := (reduce_integers least .value).2 hnone
  rw [hreduce] at hn
  cases hn
  have hfault : remainder.AtFault := .leastRemainder hvalue rfl
  have hzero : remainder.value? = some 0 := by decide +kernel
  exact ⟨hnone, hreduce, hvalue, hzero,
    (reduce_integers remainder .predicate).1.2 ⟨remainder, List.mem_cons_self, hfault⟩⟩

end IntTree

end SqlCompose
