/-
Reduction keeps what an expression means, whatever the engine makes of columns
and intrinsic calls.

Each `reduce…` function is given the meanings of its reduced operands and shown to
answer an expression that reads as the node it stands for (`Reads`), in both
positions. Only AND and OR are weaker: dropping an operand keeps the truth value
but not the value, so they may stand only where a condition is wanted (`Placed`).

`reduce_truth` is the main statement: a condition and its reduced form both have a
truth value, and the same one.
-/
import SqlCompose.Expr.Build
import SqlCompose.Proofs.Meaning

namespace SqlCompose

theorem bind_eq_ok {α β : Type} {x : Except Error α} {f : α → Except Error β} {b : β} :
    (x >>= f) = .ok b ↔ ∃ a, x = .ok a ∧ f a = .ok b := by
  cases x <;> simp [bind, Except.bind]

namespace Expr

mutual

/-- Whether AND and OR stand only where a condition is wanted: at the root, if `p` says so, or as an
operand of AND, OR or NOT. -/
def Placed : Expr → Position → Prop
  | column _ _, _ | const _, _ => True
  | member base _, _ => Placed base .value
  | unary .not e, _ => Placed e .predicate
  | unary .neg e, _ => Placed e .value
  | binary op l r, p =>
    if op.isLogical then p = .predicate ∧ Placed l .predicate ∧ Placed r .predicate
    else Placed l .value ∧ Placed r .value
  | call _ args, _ => AllPlaced args
  | tuple items, _ => AllPlaced items

def AllPlaced : List Expr → Prop
  | [] => True
  | e :: rest => Placed e .value ∧ AllPlaced rest

end

theorem constants?_cons {e : Expr} {rest : List Expr} {vs : List Value}
    (h : constants? (e :: rest) = some vs) :
    ∃ v ws, e = const v ∧ constants? rest = some ws ∧ vs = v :: ws := by
  simp only [constants?, List.mapM_cons, Option.bind_eq_bind, Option.bind_eq_some_iff,
    Option.pure_def, Option.some.injEq] at h
  obtain ⟨v, hv, ws, hws, rfl⟩ := h
  cases e <;> cases hv
  exact ⟨v, ws, rfl, hws, rfl⟩

end Expr

namespace Interpretation

variable {I : Interpretation}

theorem value_eq {e : Expr} {m : Meaning} (h : I.meaning e = some m) :
    I.value e = some (I.asValue m) := by
  simp [value, h]

theorem truth_eq {e : Expr} {m : Meaning} (h : I.meaning e = some m) :
    I.truth e = some (I.asTruth m) := by
  simp [truth, h]

@[simp] theorem operand_ofBool (b : Bool) : I.operand (.ofBool b) = .bool b := by cases b <;> rfl

/-- `e` reads as `m` in either position. -/
def Reads (I : Interpretation) (e : Expr) (m : Meaning) : Prop :=
  I.value e = some (I.asValue m) ∧ I.truth e = some (I.asTruth m)

theorem Reads.of_meaning {e : Expr} {m : Meaning} (h : I.meaning e = some m) : I.Reads e m :=
  ⟨value_eq h, truth_eq h⟩

theorem reads_bool (b : Bool) : I.Reads (.const (.bool b)) (.truth (.ofBool b)) := by
  simp [Reads, value, truth, meaning, asValue, asTruth, I.truthOf_bool]

/-! ## What the operands of a node have to mean -/

theorem truth_of_asBool? {e : Expr} {b : Bool} (h : e.asBool? = some b) :
    I.truth e = some (.ofBool b) := by
  obtain rfl : e = .const (.bool b) := by
    unfold Expr.asBool? at h
    split at h <;> cases h
    rfl
  exact (reads_bool b).2

theorem values_of_constants? : ∀ {items : List Expr} {vs : List Value},
    Expr.constants? items = some vs → I.values items = some vs
  | [], vs, h => by
    simp only [Expr.constants?, List.mapM_nil, Option.pure_def, Option.some.injEq] at h
    subst h
    rfl
  | e :: rest, vs, h => by
    obtain ⟨v, ws, rfl, hws, rfl⟩ := Expr.constants?_cons h
    simp [values, meaning, asValue, values_of_constants? hws]

/-! ## One node at a time -/

/-- NOT over a condition reads as its negation, inverted or not. -/
theorem reads_reduceNot {e : Expr} {t : Truth} (h : I.truth e = some t) :
    I.Reads e.reduceNot (.truth t.not) := by
  obtain ⟨m, hm, rfl⟩ := Option.map_eq_some_iff.1 h
  have kept : I.Reads (.unary .not e) (.truth (I.asTruth m).not) :=
    .of_meaning (by simp [meaning, hm])
  unfold Expr.reduceNot
  split
  next op l r =>
    split
    · next inv hinv =>
      have hlog : op.isLogical = false ∧ op.isComparison = true ∧
          inv.isLogical = false ∧ inv.isComparison = true := by
        cases op <;> cases hinv <;> decide
      obtain ⟨hl, hc, hil, hic⟩ := hlog
      simp only [meaning, Option.bind_eq_bind, Option.bind_eq_some_iff, Option.pure_def,
        Option.some.injEq] at hm
      obtain ⟨a, ha, b, hb, rfl⟩ := hm
      refine .of_meaning ?_
      simp [meaning, ha, hb, apply, hl, hc, hil, hic, asTruth, I.compare_inverse _ _ hinv]
    · exact kept
  next b =>
    cases hm
    have : (I.asTruth (.value (.bool b))).not = .ofBool (!b) := by simp [asTruth, I.truthOf_bool]
    rw [this]
    exact reads_bool _
  · exact kept

theorem reads_reduceNeg {e e' : Expr} {v : Value} (h : I.value e = some v)
    (hr : e.reduceNeg = .ok e') : I.Reads e' (.value (I.negate v)) := by
  obtain ⟨m, hm, rfl⟩ := Option.map_eq_some_iff.1 h
  -- Only a constant operand is computed, and then the result is a constant too.
  have hcases : (∃ a w, e = .const a ∧ e' = .const w) ∨ e' = .unary .neg e := by
    unfold Expr.reduceNeg at hr
    split at hr
    · split at hr <;> cases hr
      exact .inl ⟨_, _, rfl, rfl⟩
    · cases hr; exact .inl ⟨_, _, rfl, rfl⟩
    · cases hr; exact .inl ⟨_, _, rfl, rfl⟩
    · cases hr; exact .inr rfl
  obtain ⟨a, w, rfl, rfl⟩ | rfl := hcases
  · cases hm
    rw [asValue, I.negate_folded hr]
    exact .of_meaning rfl
  · exact .of_meaning (by simp [meaning, hm])

/-- AND and OR keep the truth value, whichever operand is dropped. -/
theorem truth_reduceLogical {op : BinaryOp} (hop : op.isLogical = true) {l r : Expr} {a b : Truth}
    (hl : I.truth l = some a) (hr : I.truth r = some b) :
    I.truth (Expr.reduceLogical op l r) = some (op.connect a b) := by
  have kept : I.truth (.binary op l r) = some (op.connect a b) := by
    obtain ⟨m, hm, rfl⟩ := Option.map_eq_some_iff.1 hl
    obtain ⟨n, hn, rfl⟩ := Option.map_eq_some_iff.1 hr
    simp [truth, meaning, hm, hn, apply, hop, asTruth]
  have known : ∀ {e : Expr} {c : Bool} {t : Truth}, I.truth e = some t → e.asBool? = some c →
      t = .ofBool c := fun he hc => by
    rw [truth_of_asBool? hc] at he
    exact (Option.some.inj he).symm
  have const_truth : ∀ c : Bool, I.truth (.const (.bool c)) = some (.ofBool c) :=
    fun c => (reads_bool c).2
  obtain rfl | rfl : op = .and ∨ op = .or := by cases op <;> simp_all [BinaryOp.isLogical]
  all_goals
    unfold Expr.reduceLogical
    cases hla : l.asBool? with
    | none =>
      cases hra : r.asBool? with
      | none => simpa using kept
      | some c =>
        obtain rfl := known hr hra
        cases c <;> simp [BinaryOp.connect, Truth.ofBool, const_truth, hl]
    | some c =>
      obtain rfl := known hl hla
      cases hra : r.asBool? with
      | none => cases c <;> simp [BinaryOp.connect, Truth.ofBool, const_truth, hr]
      | some d =>
        obtain rfl := known hr hra
        cases c <;> cases d <;> simp [BinaryOp.connect, Truth.ofBool, const_truth, hr]

theorem reads_reduceComparison {op : BinaryOp} {a b : Value} (hop : op.isComparison = true)
    (ha : a.isRaw = false) (hb : b.isRaw = false) :
    I.Reads (Expr.reduceComparison op a b) (.truth (I.compare op a b)) := by
  have hlog : op.isLogical = false := by cases op <;> first | rfl | cases hop
  unfold Expr.reduceComparison
  split
  next t ht =>
    rw [I.compare_decided ha hb ht]
    exact reads_bool t
  next => exact .of_meaning (by simp [meaning, apply, hlog, hop, asValue])

/-- A comparison or an arithmetic operator reads as the engine's over the values of its operands. -/
theorem reads_reduceBinary {op : BinaryOp} (hop : op.isLogical = false) {l r e' : Expr}
    {m n : Meaning} (hl : I.value l = some (I.asValue m)) (hr : I.value r = some (I.asValue n))
    (h : Expr.reduceBinary op l r = .ok e') : I.Reads e' (I.apply op m n) := by
  -- The operator sees nothing of its operands but their values.
  have same : ∀ {m' n' : Meaning}, I.asValue m' = I.asValue m → I.asValue n' = I.asValue n →
      I.apply op m' n' = I.apply op m n := fun hm hn => by simp [apply, hop, hm, hn]
  have kept : I.Reads (.binary op l r) (I.apply op m n) := by
    obtain ⟨m', hm', hm⟩ := Option.map_eq_some_iff.1 hl
    obtain ⟨n', hn', hn⟩ := Option.map_eq_some_iff.1 hr
    rw [← same hm hn]
    exact .of_meaning (by simp [meaning, hm', hn'])
  simp only [Expr.reduceBinary, hop, Bool.false_eq_true, if_false] at h
  split at h
  next a b =>
    have hm : a = I.asValue m := Option.some.inj hl
    have hn : b = I.asValue n := Option.some.inj hr
    split at h
    · cases h; exact kept
    · next hraw =>
      obtain ⟨ha, hb⟩ : a.isRaw = false ∧ b.isRaw = false := by simpa using hraw
      split at h
      · next hc =>
        cases h
        simpa [apply, hop, hc, hm, hn] using reads_reduceComparison (I := I) hc ha hb
      · next hc =>
        obtain ⟨v, hv, rfl⟩ : ∃ v, Value.fold op a b = .ok v ∧ Expr.const v = e' := by
          cases hf : Value.fold op a b with
          | error err => rw [hf] at h; cases h
          | ok v => rw [hf] at h; cases h; exact ⟨v, rfl, rfl⟩
        have hc : op.isComparison = false := by simpa using hc
        have := I.arithmetic_folded hop hc ha hb hv
        subst hm hn this
        simp only [apply, hop, hc, Bool.false_eq_true, if_false]
        exact .of_meaning rfl
  next => cases h; exact kept

theorem reads_reduceIntrinsic {f : Intrinsic} {args : List Expr} {vs : List Value} {e' : Expr}
    (hargs : I.values args = some vs) (h : Expr.reduceIntrinsic f args = .ok e') :
    I.Reads e' (.value (I.intrinsic f vs)) := by
  unfold Expr.reduceIntrinsic at h
  split at h <;> cases h
  exact .of_meaning (by simp [Expr.intrinsic, meaning, hargs, callValue])

theorem reads_reduceHostCall {name : String} {host : HostFn} {args : List Expr} {vs : List Value}
    {e' : Expr} (hargs : I.values args = some vs)
    (h : Expr.reduceHostCall name host args = .ok e') :
    ∃ v, host vs = .ok v ∧ I.Reads e' (.value v) := by
  unfold Expr.reduceHostCall at h
  split at h
  · cases h
  next ws hws =>
  rw [values_of_constants? hws] at hargs
  cases hargs
  split at h <;> cases h
  next v hv => exact ⟨v, hv, .of_meaning rfl⟩

theorem reads_reduceTuple {items : List Expr} {vs : List Value} (h : I.values items = some vs) :
    I.Reads (Expr.reduceTuple items) (.value (.tuple vs)) := by
  unfold Expr.reduceTuple
  split
  next ws hws =>
    rw [values_of_constants? hws] at h
    cases h
    exact .of_meaning rfl
  next => exact .of_meaning (by simp [meaning, h])

/-! ## The whole expression -/

/-- `e` and `e'` both have what `p` asks for, and the same. -/
def Same (I : Interpretation) (e e' : Expr) : Position → Prop
  | .value => ∃ v, I.value e = some v ∧ I.value e' = some v
  | .predicate => ∃ t, I.truth e = some t ∧ I.truth e' = some t

theorem Reads.same {e e' : Expr} {m : Meaning} (h : I.meaning e = some m) (h' : I.Reads e' m) :
    ∀ p, I.Same e e' p
  | .value => ⟨_, value_eq h, h'.1⟩
  | .predicate => ⟨_, truth_eq h, h'.2⟩

theorem same_column {table : Table} {name : String} {p : Position} {e' : Expr}
    (h : Expr.reduceColumn p table name = .ok e') : I.Same (.column table name) e' p := by
  unfold Expr.reduceColumn at h
  split at h
  · cases h
  next f hf =>
  have hflag : table.isFlag name = decide (f.ty = .boolean) := by simp [Table.isFlag, hf]
  split at h
  · next hb =>
    obtain ⟨hb, rfl⟩ := hb
    cases h
    refine ⟨_, truth_eq rfl, ?_⟩
    simp [truth, meaning, hflag, hb, apply, asTruth, asValue, BinaryOp.isLogical,
      BinaryOp.isComparison]
  · cases h
    exact (Reads.of_meaning rfl).same rfl p

theorem same_member {base base' e' : Expr} {name : String} (hbase : I.Same base base' .value)
    (h : Expr.reduceMember name base' = .ok e') (p : Position) :
    I.Same (.member base name) e' p := by
  obtain ⟨v, hv, hv'⟩ := hbase
  obtain ⟨m, hm, rfl⟩ := Option.map_eq_some_iff.1 hv
  unfold Expr.reduceMember at h
  split at h
  · next c =>
    have hc : c = I.asValue m := Option.some.inj hv'
    split at h <;> cases h
    next x hx =>
    have : I.meaning (.member base name) = some (.value x) := by simp [meaning, hm, ← hc, hx]
    exact (Reads.of_meaning rfl).same this p
  · cases h

mutual

/-- Reduction keeps the value of an expression that stands as a value, and the truth value of one
that stands as a condition. -/
theorem reduce_same (I : Interpretation) : ∀ (e : Expr) (p : Position) {e' : Expr}, e.Placed p →
    e.reduce p = .ok e' → I.Same e e' p
  | .const v, p, e', _, h => by
    cases h
    exact (Reads.of_meaning rfl).same rfl p
  | .column table name, p, e', _, h => same_column h
  | .member base name, p, e', hp, h => by
    simp only [Expr.reduce, bind_eq_ok] at h
    obtain ⟨base', hb, h⟩ := h
    exact same_member (reduce_same I base .value hp hb) h p
  | .unary .not e, p, e', hp, h => by
    simp only [Expr.reduce, bind_eq_ok] at h
    obtain ⟨x, hx, h⟩ := h
    cases h
    obtain ⟨t, ht, ht'⟩ := reduce_same I e .predicate hp hx
    obtain ⟨m, hm, rfl⟩ := Option.map_eq_some_iff.1 ht
    exact (reads_reduceNot ht').same (by simp [meaning, hm]) p
  | .unary .neg e, p, e', hp, h => by
    simp only [Expr.reduce, bind_eq_ok] at h
    obtain ⟨x, hx, h⟩ := h
    obtain ⟨v, hv, hv'⟩ := reduce_same I e .value hp hx
    obtain ⟨m, hm, rfl⟩ := Option.map_eq_some_iff.1 hv
    exact (reads_reduceNeg hv' h).same (by simp [meaning, hm]) p
  | .binary op l r, p, e', hp, h => by
    simp only [Expr.reduce, bind_eq_ok] at h
    obtain ⟨l', hl, r', hr, h⟩ := h
    cases hop : op.isLogical with
    | true =>
      simp only [Expr.Placed, hop, if_true] at hp
      obtain ⟨rfl, hpl, hpr⟩ := hp
      simp only [BinaryOp.operandPosition, hop, if_true] at hl hr
      obtain ⟨a, ha, ha'⟩ := reduce_same I l .predicate hpl hl
      obtain ⟨b, hb, hb'⟩ := reduce_same I r .predicate hpr hr
      obtain ⟨m, hm, rfl⟩ := Option.map_eq_some_iff.1 ha
      obtain ⟨n, hn, rfl⟩ := Option.map_eq_some_iff.1 hb
      simp only [Expr.reduceBinary, hop, if_true, Except.ok.injEq] at h
      subst h
      refine ⟨_, ?_, truth_reduceLogical hop ha' hb'⟩
      simp [truth, meaning, hm, hn, apply, hop, asTruth]
    | false =>
      simp only [Expr.Placed, hop, Bool.false_eq_true, if_false] at hp
      simp only [BinaryOp.operandPosition, hop, Bool.false_eq_true, if_false] at hl hr
      obtain ⟨a, ha, ha'⟩ := reduce_same I l .value hp.1 hl
      obtain ⟨b, hb, hb'⟩ := reduce_same I r .value hp.2 hr
      obtain ⟨m, hm, rfl⟩ := Option.map_eq_some_iff.1 ha
      obtain ⟨n, hn, rfl⟩ := Option.map_eq_some_iff.1 hb
      exact (reads_reduceBinary hop ha' hb' h).same (by simp [meaning, hm, hn]) p
  | .call callee args, p, e', hp, h => by
    simp only [Expr.reduce] at h
    split at h
    · next f hf =>
      obtain ⟨args', ha, h⟩ := bind_eq_ok.1 h
      obtain ⟨vs, hvs, hvs'⟩ := reduceAll_same I args hp ha
      exact (reads_reduceIntrinsic hvs' h).same (by simp [meaning, hvs, callValue, hf]) p
    · next host hf hh =>
      obtain ⟨args', ha, h⟩ := bind_eq_ok.1 h
      obtain ⟨vs, hvs, hvs'⟩ := reduceAll_same I args hp ha
      obtain ⟨v, hv, hread⟩ := reads_reduceHostCall hvs' h
      exact hread.same (by simp [meaning, hvs, callValue, hf, hh, hv, Except.toOption]) p
    · cases h
  | .tuple items, p, e', hp, h => by
    simp only [Expr.reduce, bind_eq_ok] at h
    obtain ⟨items', hi, h⟩ := h
    cases h
    obtain ⟨vs, hvs, hvs'⟩ := reduceAll_same I items hp hi
    exact (reads_reduceTuple hvs').same (by simp [meaning, hvs]) p

theorem reduceAll_same (I : Interpretation) : ∀ (items : List Expr) {items' : List Expr},
    Expr.AllPlaced items → Expr.reduceAll items = .ok items' →
    ∃ vs, I.values items = some vs ∧ I.values items' = some vs
  | [], items', _, h => by
    cases h
    exact ⟨[], rfl, rfl⟩
  | e :: rest, items', hp, h => by
    simp only [Expr.reduceAll, bind_eq_ok] at h
    obtain ⟨e', he, rest', hrest, h⟩ := h
    cases h
    obtain ⟨v, hv, hv'⟩ := reduce_same I e .value hp.1 he
    obtain ⟨vs, hvs, hvs'⟩ := reduceAll_same I rest hp.2 hrest
    obtain ⟨m, hm, rfl⟩ := Option.map_eq_some_iff.1 hv
    obtain ⟨m', hm', heq⟩ := Option.map_eq_some_iff.1 hv'
    exact ⟨I.asValue m :: vs, by simp [values, hm, hvs], by simp [values, hm', hvs', heq]⟩

end

end Interpretation

/-- **Reduction keeps the truth of a condition.** Whatever the engine makes of columns and intrinsic
calls, a condition that reduces has a truth value, and its reduced form has the same. -/
theorem reduce_truth (I : Interpretation) {e e' : Expr} (hp : e.Placed .predicate)
    (h : e.reduce .predicate = .ok e') : ∃ t, I.truth e = some t ∧ I.truth e' = some t :=
  I.reduce_same e .predicate hp h

/-- Not shipped, in a table where that is not known. -/
theorem reduce_truth_unknown_flag :
    let orders : Table := ⟨"Order", "Order", [{ name := "Shipped", ty := .boolean }]⟩
    let e := Expr.unary .not (.binary .and (orders.col "Shipped")
      (.binary .lt (.const (.int 1)) (.captured (.record [("Max", .int 2)]) "Max")))
    let e' := Expr.binary .ne (orders.col "Shipped") (.const (.bool true))
    let I := Interpretation.standard fun _ _ => .null
    e.reduce .predicate = .ok e' ∧ I.truth e' = some .unknown ∧
      ∃ t, I.truth e = some t ∧ I.truth e' = some t :=
  ⟨rfl, rfl, reduce_truth _ (by simp [Expr.Placed, Table.col, Expr.captured, BinaryOp.isLogical]) rfl⟩

end SqlCompose
