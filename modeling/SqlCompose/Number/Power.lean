/-
Powers of ten and of two among the natural numbers: the units of decimal and of
binary places.
-/

namespace SqlCompose

/-- The unit of `n` decimal places. -/
def tenPow (n : Nat) : Nat := Nat.pow 10 n

/-- The unit of `n` binary places. -/
def twoPow (n : Nat) : Nat := Nat.pow 2 n

@[simp] theorem tenPow_zero : tenPow 0 = 1 := rfl

theorem tenPow_succ (n : Nat) : tenPow (n + 1) = tenPow n * 10 := rfl

theorem tenPow_pos (n : Nat) : 0 < tenPow n := by
  induction n with
  | zero => decide
  | succ n ih =>
    rw [tenPow_succ]
    omega

@[simp] theorem twoPow_zero : twoPow 0 = 1 := rfl

theorem twoPow_succ (n : Nat) : twoPow (n + 1) = twoPow n * 2 := rfl

theorem twoPow_pos (n : Nat) : 0 < twoPow n := by
  induction n with
  | zero => decide
  | succ n ih =>
    rw [twoPow_succ]
    omega

end SqlCompose
