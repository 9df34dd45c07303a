/-
Negation while reducing.

NOT inverts a comparison after its operands are reduced, while constants are compared before. The
two orders agree (`Expr.reduceBinary_inverse`): a comparison that is decided has the opposite answer
inverted, and one that is not decided stays undecided, so it stays in the tree with the inverse
operator. Applied again and again, NOT goes to and fro between an expression and its opposite
(`Expr.reduce_nots`) and never piles up.
-/
import Mathlib.Algebra.Group.Nat.Even
import Mathlib.Logic.Function.Iterate
import SqlCompose.Proofs.NormalForm

namespace SqlCompose

theorem BinaryOp.exists_inverse {op : BinaryOp} (h : op.isComparison = true) :
    ∃ inv, op.inverse? = some inv := by
  rw [← BinaryOp.inverse?_isSome] at h
  exact Option.isSome_iff_exists.1 h

namespace Expr

/-! ## Inverting a comparison -/

theorem reduceComparison_inverse {op inv : BinaryOp} (h : op.inverse? = some inv) (a b : Value) :
    reduceComparison inv a b = reduceNot (reduceComparison op a b) := by
  unfold reduceComparison
  rw [Value.decide?_inverse? h]
  cases Value.decide? op a b with
  | none => simp [reduceNot, h]
  | some decided => rfl

/-- Combining reduced operands by the inverse operator is combining them and then inverting. -/
theorem reduceBinary_inverse {op inv : BinaryOp} (h : op.inverse? = some inv) (l r : Expr) :
    reduceBinary inv l r = (reduceBinary op l r).map reduceNot := by
  obtain ⟨hl, hc, hil, hic⟩ := BinaryOp.kind_of_inverse? h
  have hkept : reduceNot (binary op l r) = binary inv l r := by simp [reduceNot, h]
  unfold reduceBinary
  simp only [hl, hc, hil, hic, Bool.false_eq_true, if_false, if_true]
  split
  · next a b =>
    split
    · rw [Except.map, hkept]
    · rw [Except.map, reduceComparison_inverse h]
  · rw [Except.map, hkept]

/-- NOT over a comparison reduces to what the inverse comparison reduces to. -/
theorem reduce_not_binary {op inv : BinaryOp} (h : op.inverse? = some inv) (l r : Expr)
    (p : Position) : (unary .not (binary op l r)).reduce p = (binary inv l r).reduce p := by
  obtain ⟨hl, -, hil, -⟩ := BinaryOp.kind_of_inverse? h
  simp only [reduce, BinaryOp.operandPosition, hl, hil, Bool.false_eq_true, if_false]
  -- Both sides reduce the operands as values first, and end there if one fails.
  cases l.reduce .value with
  | error err => rfl
  | ok l' =>
    cases r.reduce .value with
    | error err => rfl
    | ok r' =>
      change (reduceBinary op l' r' >>= fun e => .ok (reduceNot e)) = reduceBinary inv l' r'
      rw [reduceBinary_inverse h]
      cases reduceBinary op l' r' <;> rfl

/-! ## Negating again and again -/

/-- The expression that holds where the other fails and fails where it holds: the comparison by the
inverse operator, or the other truth value. -/
inductive Opposite : Expr → Expr → Prop
  | comparison {op inv : BinaryOp} (h : op.inverse? = some inv) (l r : Expr) :
    Opposite (binary op l r) (binary inv l r)
  | bool (b : Bool) : Opposite (const (.bool b)) (const (.bool !b))

namespace Opposite

variable {e o : Expr}

theorem symm (h : e.Opposite o) : o.Opposite e := by
  cases h with
  | comparison h l r => exact .comparison (BinaryOp.inverse?_inverse? h) l r
  | bool b => simpa using Opposite.bool (!b)

theorem ne_not (h : e.Opposite o) (x : Expr) : e ≠ unary .not x := by
  cases h <;> exact nofun

theorem reduceNot_eq (h : e.Opposite o) : e.reduceNot = o := by
  cases h with
  | comparison h l r => simp [reduceNot, h]
  | bool b => rfl

end Opposite

theorem exists_opposite {e : Expr} (h : e.isComparison = true ∨ ∃ b, e = const (.bool b)) :
    ∃ o, e.Opposite o := by
  rcases h with h | ⟨b, rfl⟩
  · cases e with
    | binary op l r =>
      obtain ⟨inv, hinv⟩ := BinaryOp.exists_inverse h
      exact ⟨_, .comparison hinv l r⟩
    | _ => cases h
  · exact ⟨_, .bool b⟩

def nots (n : Nat) (e : Expr) : Expr := (unary .not)^[n] e

theorem nots_succ (n : Nat) (e : Expr) : nots (n + 1) e = unary .not (nots n e) :=
  Function.iterate_succ_apply' _ n e

/-- Where the operand of NOT reduces to an expression with an opposite, NOT reduces to that. -/
theorem reduce_not_of_opposite {e e' o : Expr} (he : e.reduce .predicate = .ok e')
    (h : e'.Opposite o) (p : Position) : (unary .not e).reduce p = .ok o := by
  simp only [reduce, UnaryOp.operandPosition, he]
  exact congrArg Except.ok h.reduceNot_eq

/-- Each NOT takes the result to its opposite. -/
theorem reduce_nots_of_opposite {e e' o : Expr} (he : e.reduce .predicate = .ok e')
    (h : e'.Opposite o) (n : Nat) :
    (nots n e).reduce .predicate = .ok (if Even n then e' else o) := by
  induction n with
  | zero => exact he
  | succ n ih =>
    rw [nots_succ]
    simp only [Nat.even_add_one]
    by_cases hn : Even n
    · rw [if_pos hn] at ih
      rw [if_neg (not_not.2 hn), reduce_not_of_opposite ih h]
    · rw [if_neg hn] at ih
      rw [if_pos hn, reduce_not_of_opposite ih h.symm]

/-- **Negating is inverting.** NOT over a comparison reduces, at any place, to what the comparison
by the inverse operator reduces to, error or not. Where an expression reduces to a comparison or a
truth value, NOT applied to it `n` times reduces to that for even `n` and to its opposite for odd
`n`, at any place once there is a NOT, and neither of the two is a NOT. -/
theorem reduce_nots :
    (∀ op : BinaryOp, op.isComparison = true → ∃ inv, op.inverse? = some inv ∧
      ∀ (l r : Expr) (p : Position),
        (unary .not (binary op l r)).reduce p = (binary inv l r).reduce p) ∧
    ∀ e e' : Expr, e.reduce .predicate = .ok e' →
      (e'.isComparison = true ∨ ∃ b, e' = const (.bool b)) →
      ∃ o, e'.Opposite o ∧ (∀ x, e' ≠ unary .not x ∧ o ≠ unary .not x) ∧
        ∀ (n : Nat) (p : Position), (p = .predicate ∨ 0 < n) →
          (nots n e).reduce p = .ok (if Even n then e' else o) := by
  constructor
  · intro op hop
    obtain ⟨inv, hinv⟩ := BinaryOp.exists_inverse hop
    exact ⟨inv, hinv, reduce_not_binary hinv⟩
  · intro e e' he hkind
    obtain ⟨o, ho⟩ := exists_opposite hkind
    refine ⟨o, ho, fun x => ⟨ho.ne_not x, ho.symm.ne_not x⟩, fun n p hp => ?_⟩
    have hn := reduce_nots_of_opposite he ho n
    cases n with
    | zero =>
      obtain rfl : p = .predicate := by simpa using hp
      exact hn
    | succ n =>
      -- Under a NOT the operand is reduced as a condition, wherever the NOT stands.
      rw [nots_succ] at hn ⊢
      simpa only [reduce] using hn

/-- A number and a text have no order, so the comparison stays, and NOT inverts it. -/
theorem reduce_nots_incomparable :
    let e : Expr := binary .lt (const (.int 1)) (const (.string "x"))
    let o : Expr := binary .ge (const (.int 1)) (const (.string "x"))
    e.reduce .predicate = .ok e ∧ BinaryOp.inverse? .lt = some .ge ∧
      (unary .not e).reduce .value = o.reduce .value ∧ (nots 3 e).reduce .value = .ok o := by
  intro e o
  have he : e.reduce .predicate = .ok e := rfl
  obtain ⟨inv, hinv, hnot⟩ := reduce_nots.1 .lt rfl
  cases hinv
  obtain ⟨o', ho, -, hnots⟩ := reduce_nots.2 e e he (.inl rfl)
  obtain rfl : o = o' := ho.reduceNot_eq
  exact ⟨he, rfl, hnot _ _ .value, hnots 3 .value (.inr (by decide))⟩

end Expr

end SqlCompose
