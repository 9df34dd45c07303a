/-
Binding step by step: what a computation answers, and the table of parameters it
leaves, from the table it starts with. Proofs about rendering use these equations
and never look inside the monad.
-/
import SqlCompose.Compile

namespace SqlCompose

namespace Binder

variable {α β : Type}

def exec (m : Binder α) (p : Parameters) : Except Error α × Parameters := m.run.run p

@[simp] theorem exec_pure (a : α) (p : Parameters) : (pure a : Binder α).exec p = (.ok a, p) := rfl

@[simp] theorem exec_throw (err : Error) (p : Parameters) :
    (throw err : Binder α).exec p = (.error err, p) := rfl

@[simp] theorem exec_bindValue (v : Value) (p : Parameters) :
    (bindValue v).exec p = (.ok p.nextKey, p.push v) := rfl

/-- The second part runs on the parameters the first one leaves, unless that fails. -/
theorem exec_bind (m : Binder α) (k : α → Binder β) (p : Parameters) :
    (m >>= k).exec p =
      match m.exec p with
      | (.ok a, q) => (k a).exec q
      | (.error err, q) => (.error err, q) := by
  simp only [exec, ExceptT.run_bind, StateT.run_bind]
  change (match m.run.run p with | (r, q) => _) = _
  cases m.run.run p with
  | mk r q => cases r <;> rfl

theorem exec_bind_ok {m : Binder α} {k : α → Binder β} {p q : Parameters} {a : α}
    (h : m.exec p = (.ok a, q)) : (m >>= k).exec p = (k a).exec q := by
  rw [exec_bind, h]

theorem exec_bind_error {m : Binder α} {k : α → Binder β} {p q : Parameters} {err : Error}
    (h : m.exec p = (.error err, q)) : (m >>= k).exec p = (.error err, q) := by
  rw [exec_bind, h]

theorem exec_bind_eq_ok {m : Binder α} {k : α → Binder β} {p q : Parameters} {b : β}
    (h : (m >>= k).exec p = (.ok b, q)) :
    ∃ a p', m.exec p = (.ok a, p') ∧ (k a).exec p' = (.ok b, q) := by
  rcases hm : m.exec p with ⟨err | a, p'⟩
  · rw [exec_bind_error hm] at h
    cases h
  · rw [exec_bind_ok hm] at h
    exact ⟨a, p', rfl, h⟩

theorem exec_bind_eq_error {m : Binder α} {k : α → Binder β} {p q : Parameters} {err : Error}
    (h : (m >>= k).exec p = (.error err, q)) :
    m.exec p = (.error err, q) ∨
      ∃ a p', m.exec p = (.ok a, p') ∧ (k a).exec p' = (.error err, q) := by
  rcases hm : m.exec p with ⟨err' | a, p'⟩
  · rw [exec_bind_error hm] at h
    cases h
    exact .inl rfl
  · rw [exec_bind_ok hm] at h
    exact .inr ⟨a, p', rfl, h⟩

theorem exec_mapM_cons {f : α → Binder β} {x : α} {xs : List α} {ys : List β} {p q : Parameters}
    (h : ((x :: xs).mapM f).exec p = (.ok ys, q)) :
    ∃ y rest p', (f x).exec p = (.ok y, p') ∧ (xs.mapM f).exec p' = (.ok rest, q) ∧
      ys = y :: rest := by
  rw [List.mapM_cons] at h
  obtain ⟨y, p', hy, h⟩ := exec_bind_eq_ok h
  obtain ⟨rest, q', hrest, h⟩ := exec_bind_eq_ok h
  cases h
  exact ⟨y, rest, p', hy, hrest, rfl⟩

end Binder

def Mode.position : Mode → Position
  | .predicate => .predicate
  | .projection | .ordering _ => .value

namespace Target

/-- The text of a reduced expression for one place in a statement. -/
def renderFor (t : Target) : Mode → Expr → Binder String
  | .predicate, e => t.renderCondition e
  | .projection, e => t.render e
  | .ordering direction, e => t.renderOrdering direction e

/-- Compiling is reducing, then rendering. -/
theorem compile_eq (t : Target) (mode : Mode) (e : Expr) :
    t.compile mode e = reduced e mode.position >>= t.renderFor mode := by
  cases mode <;> rfl

theorem renderAll_eq_mapM (t : Target) (items : List Expr) :
    t.renderAll items = items.mapM t.render := by
  induction items with
  | nil => rfl
  | cons e rest ih => rw [renderAll, List.mapM_cons, ih]

theorem renderValues_eq_mapM (t : Target) (items : List Value) :
    t.renderValues items = items.mapM t.renderValue := by
  induction items with
  | nil => rfl
  | cons v rest ih => rw [renderValues, List.mapM_cons, ih]

end Target

end SqlCompose
