/-
Integers of 64 bits among all integers.
-/

namespace SqlCompose

def int64? (n : Int) : Option Int64 :=
  if Int64.minValue.toInt ≤ n ∧ n ≤ Int64.maxValue.toInt then some (Int64.ofInt n) else none

end SqlCompose
