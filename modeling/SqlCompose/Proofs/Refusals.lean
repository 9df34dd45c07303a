/-
When compiling fails, and why.

Rendering a normal expression fails for the reasons of its rendered nodes
(`Target.renderFor_failsFor`): a record, an alias without a name, or a cast without a
known type or with a size that no type can have. So no other reason is ever given. What
rendering would say of a member that is left, of a call that is no intrinsic or of a
missing argument is never heard, since reduction leaves no such tree and does not say it
either (`Target.compile_error_iff`).
-/
import Mathlib.Data.List.Basic
import SqlCompose.Expr.Build
import SqlCompose.Proofs.NormalForm
import SqlCompose.Proofs.Objections

namespace SqlCompose

theorem LogicalType.ofName?_eq_none_iff (s : String) :
    LogicalType.ofName? s = none ↔ ∀ ty : LogicalType, ty.name ≠ s := by
  constructor
  · rintro h ty rfl
    rw [ofName?_name] at h
    cases h
  · intro h
    refine List.find?_eq_none.2 fun ty _ => ?_
    simpa using h ty

/-! ## Rendering -/

namespace Target

mutual

theorem renderValue_failsFor (t : Target) : ∀ v : Value, FailsFor (t.renderValue v) v.objections
  | .null | .bool _ | .sql _ => (FailsFor.pure _).congr (Value.objections_eq_empty (by nofun)).symm
  | .record fields => .refuse ⟨.record fields, rfl⟩
  | .list items => by
    rw [renderValue, renderValues_eq_mapM, Value.objections_list]
    exact (FailsFor.mapM items (renderValue_failsFor_of_mem t items)).map _
  | .tuple items => by
    rw [renderValue, renderValues_eq_mapM, Value.objections_tuple]
    exact (FailsFor.mapM items (renderValue_failsFor_of_mem t items)).map _
  | .int _ | .float _ | .decimal _ | .string _ | .dateTime _ | .guid _ | .binary _ =>
    (FailsFor.bindValue _).congr (Value.objections_eq_empty (by nofun)).symm

theorem renderValue_failsFor_of_mem (t : Target) :
    ∀ (items : List Value), ∀ v ∈ items, FailsFor (t.renderValue v) v.objections
  | [] => nofun
  | w :: rest => List.forall_mem_cons.2
    ⟨renderValue_failsFor t w, renderValue_failsFor_of_mem t rest⟩

end

/-- The end of a range is rendered, or it is a time, which is always written. -/
theorem writtenOr_failsFor {t : Target} {e : Expr} (h : FailsFor (t.render e) e.objections) :
    FailsFor (writtenOr (t.writtenBound? e) (t.render e)) e.objections := by
  cases hw : t.writtenBound? e with
  | none => exact h
  | some text =>
    obtain ⟨d, rfl⟩ : ∃ d, e = .const (.dateTime d) := by
      unfold writtenBound? at hw
      split at hw
      · exact ⟨_, rfl⟩
      · cases hw
    refine (FailsFor.pure text).congr ?_
    rw [Expr.objections_const, Value.objections_eq_empty (by nofun)]

theorem objections_of_isEmptyList {e : Expr} (h : isEmptyList e = true) : e.objections = ∅ := by
  unfold isEmptyList at h
  split at h
  · simp [Expr.objections_const, Value.objections_list]
  · simp [Expr.objections_const, Value.objections_tuple]
  · cases h

theorem objections_of_isNull {e : Expr} (h : e.isNull = true) : e.objections = ∅ := by
  unfold Expr.isNull at h
  split at h
  · rw [Expr.objections_const, Value.objections_eq_empty (by nofun)]
  · cases h

/-! ### Names and types -/

theorem aliasName_of_ne {x y : Expr} {rest : List Expr} (hy : ∀ s, y ≠ .const (.string s)) :
    aliasName (x :: y :: rest) = .error .aliasNotConstant := by
  unfold aliasName
  split
  · next h =>
    cases h
    exact absurd rfl (hy _)
  · rfl
  · next h => exact absurd rfl (h _ _ _)

theorem castType_of_ne {x y : Expr} {rest : List Expr} (hy : ∀ s, y ≠ .const (.string s)) :
    castType (x :: y :: rest) = .error .castTypeNotConstant := by
  unfold castType
  split
  · next h =>
    cases h
    exact absurd rfl (hy _)
  · rfl
  · next h => exact absurd rfl (h _ _ _)

theorem refused_named {callee : Callee} (hf : callee.intrinsic? = some .named) (x y : Expr)
    (rest : List Expr) :
    (∀ cause, aliasName (x :: y :: rest) = .error cause →
      cause ∈ (Expr.call callee (x :: y :: rest)).ownObjections) ∧
    ∀ name, aliasName (x :: y :: rest) = .ok name →
      (Expr.call callee (x :: y :: rest)).ownObjections = ∅ := by
  by_cases hy : ∃ s, y = .const (.string s)
  · obtain ⟨s, rfl⟩ := hy
    have hname : aliasName (x :: .const (.string s) :: rest) = .ok s := rfl
    refine ⟨fun cause h => ?_, fun _ _ => Set.eq_empty_of_forall_notMem fun cause hc => ?_⟩
    · rw [hname] at h
      cases h
    · cases hc with
      | aliasName _ hy => exact hy s rfl
      | castTarget hf' | castType hf' | castSize hf' => cases hf.symm.trans hf'
  · have hy : ∀ s, y ≠ .const (.string s) := fun s h => hy ⟨s, h⟩
    rw [aliasName_of_ne hy]
    refine ⟨?_, nofun⟩
    rintro _ ⟨⟩
    exact .aliasName hf hy

/-- A cast whose type is not known, or whose size no type can have, is refused, any other is not. -/
theorem refused_cast {callee : Callee} (hf : callee.intrinsic? = some .cast) (x y : Expr)
    (rest : List Expr) :
    (∀ cause, castType (x :: y :: rest) = .error cause →
      cause ∈ (Expr.call callee (x :: y :: rest)).ownObjections) ∧
    ∀ use, castType (x :: y :: rest) = .ok use →
      (Expr.call callee (x :: y :: rest)).ownObjections = ∅ := by
  have range_iff : ∀ n : Int64, (0 ≤ n.toInt ∧ n.toInt.toNat < UInt32.size) ↔
      (0 ≤ n.toInt ∧ n.toInt ≤ 2 ^ 32 - 1) := by
    intro n
    have : UInt32.size = 2 ^ 32 := rfl
    omega
  by_cases hy : ∃ s, y = .const (.string s)
  · obtain ⟨s, rfl⟩ := hy
    cases hs : LogicalType.ofName? s with
    | none =>
      simp only [castType, hs]
      refine ⟨?_, nofun⟩
      rintro _ ⟨⟩
      exact .castType hf ((LogicalType.ofName?_eq_none_iff s).1 hs)
    | some ty =>
      refine ⟨fun cause h => ?_, fun use h => Set.eq_empty_of_forall_notMem fun cause hc => ?_⟩
      · simp only [castType, hs] at h
        split at h
        · split at h <;> cases h
          next hn => exact .castSize hf fun hrange => hn ((range_iff _).2 hrange)
        · cases h
      · cases hc with
        | aliasName hf' => cases hf.symm.trans hf'
        | castTarget _ hy => exact hy s rfl
        | castType _ hne => cases hs.symm.trans ((LogicalType.ofName?_eq_none_iff s).2 hne)
        | castSize _ hn =>
          simp only [castType, hs] at h
          split at h
          · next hrange => exact hn ((range_iff _).1 hrange)
          · cases h
  · have hy : ∀ s, y ≠ .const (.string s) := fun s h => hy ⟨s, h⟩
    rw [castType_of_ne hy]
    refine ⟨?_, nofun⟩
    rintro _ ⟨⟩
    exact .castTarget hf hy

/-! ### Expressions -/

theorem renderCall_failsFor (t : Target) {callee : Callee} {f : Intrinsic}
    (hf : callee.intrinsic? = some f) {args : List Expr} (hcount : f.accepts args.length = true)
    (h : ∀ e ∈ args, FailsFor (t.render e) e.objections) :
    FailsFor (t.renderCall f args) (Expr.call callee args).objections := by
  obtain ⟨hmin, hmax⟩ : f.arity.1 ≤ args.length ∧ args.length ≤ f.arity.2 := by
    simpa [Intrinsic.accepts] using hcount
  cases f with
  | named =>
    obtain ⟨x, y, rfl⟩ := List.length_eq_two.1 (Nat.le_antisymm hmax hmin)
    obtain ⟨herror, hok⟩ := refused_named hf x y []
    rw [renderCall, Expr.objections_call hf]
    split
    · next cause hc => exact .refuse (.inl (herror cause hc))
    · next name hn =>
      refine ((h x (by simp)).map _).congr ?_
      simp [hok name hn, Intrinsic.rendered]
  | cast =>
    obtain ⟨x, y, rest, rfl⟩ : ∃ x y rest, args = x :: y :: rest := by
      match args, hmin with
      | x :: y :: rest, _ => exact ⟨x, y, rest, rfl⟩
    obtain ⟨herror, hok⟩ := refused_cast hf x y rest
    rw [renderCall, Expr.objections_call hf]
    split
    · next cause hc => exact .refuse (.inl (herror cause hc))
    · next use hu =>
      refine ((h x (by simp)).map _).congr ?_
      simp [hok use hu, Intrinsic.rendered]
  | between =>
    obtain ⟨x, low, high, rfl⟩ := List.length_eq_three.1 (Nat.le_antisymm hmax hmin)
    have hlow := writtenOr_failsFor (h low (by simp))
    have hhigh := writtenOr_failsFor (h high (by simp))
    have hx := (h x (by simp)).bind fun operand =>
      hlow.seq hhigh fun low high => rangeTest operand low high
    simpa [renderCall, Expr.objections_call_of_ne hf] using hx
  | member =>
    obtain ⟨x, list, rfl⟩ := List.length_eq_two.1 (Nat.le_antisymm hmax hmin)
    have hx := h x (by simp)
    rw [Expr.objections_call_of_ne hf (by decide) (by decide)]
    cases hempty : isEmptyList list with
    | true =>
      have hx := hx.map fun _ => t.dialect.binary .eq "1" "0"
      simpa [renderCall, hempty, objections_of_isEmptyList hempty] using hx
    | false =>
      have hx := hx.seq (h list (by simp)) fun operand => memberTest operand list
      simpa [renderCall, hempty] using hx
  | like =>
    obtain ⟨x, y, rfl⟩ := List.length_eq_two.1 (Nat.le_antisymm hmax hmin)
    have hx := (h x (by simp)).seq (h y (by simp)) fun a b => "(" ++ a ++ " LIKE " ++ b ++ ")"
    simpa [renderCall, Expr.objections_call_of_ne hf] using hx
  | ifNull =>
    obtain ⟨x, y, rfl⟩ := List.length_eq_two.1 (Nat.le_antisymm hmax hmin)
    have hx := (h x (by simp)).seq (h y (by simp)) fun a b => applied t.dialect.nullFunction [a, b]
    simpa [renderCall, Expr.objections_call_of_ne hf] using hx
  | count =>
    rw [Expr.objections_call_of_ne hf (by decide) (by decide)]
    match args, hmax with
    | [], _ => exact (FailsFor.pure "COUNT(*)").congr (by simp)
    | [x], _ => exact ((h x (by simp)).map (t.functionOf .count)).congr (by simp)
  | _ =>
    obtain ⟨x, rfl⟩ := List.length_eq_one_iff.1 (Nat.le_antisymm hmax hmin)
    rw [Expr.objections_call_of_ne hf (by decide) (by decide)]
    exact ((h x (by simp)).map (t.functionOf _)).congr (by simp)

mutual

theorem render_failsFor (t : Target) : ∀ e : Expr, e.Normal → FailsFor (t.render e) e.objections
  | .column table name, _ => (FailsFor.pure _).congr (Expr.objections_column table name).symm
  | .member _ _, h => h.elim
  | .const v, _ => (renderValue_failsFor t v).congr (Expr.objections_const v).symm
  | .unary op e, h => by
    rw [Expr.objections_unary]
    exact (render_failsFor t e h.2).map (Dialect.unary op)
  | .binary op l r, h => by
    have hl := render_failsFor t l h.2.1
    have hr := render_failsFor t r h.2.2
    rw [render, Expr.objections_binary]
    split
    · next hn =>
      rw [objections_of_isNull (Bool.and_eq_true_iff.1 hn).2, Set.union_empty]
      exact hl.map (Dialect.nullTest op)
    split
    · next hn =>
      rw [objections_of_isNull (Bool.and_eq_true_iff.1 hn).2, Set.empty_union]
      exact hr.map (Dialect.nullTest op)
    · exact hl.seq hr (t.dialect.binary op)
  | .call callee args, ⟨⟨_, _, f, hf, hcount⟩, hargs⟩ => by
    rw [render, hf]
    exact renderCall_failsFor t hf hcount (render_failsFor_of_mem t args hargs)
  | .tuple items, h => by
    rw [render, renderAll_eq_mapM, Expr.objections_tuple]
    exact (FailsFor.mapM items (render_failsFor_of_mem t items h.2)).map commaList

theorem render_failsFor_of_mem (t : Target) : ∀ items : List Expr, Expr.AllNormal items →
    ∀ e ∈ items, FailsFor (t.render e) e.objections
  | [], _ => nofun
  | e :: rest, h => List.forall_mem_cons.2
    ⟨render_failsFor t e h.1, render_failsFor_of_mem t rest h.2⟩

end

/-- **Rendering a normal expression fails for the reasons of its rendered nodes.** -/
theorem renderFor_failsFor (t : Target) (mode : Mode) {e : Expr} (h : e.Normal) :
    FailsFor (t.renderFor mode e) e.objections := by
  cases mode with
  | predicate =>
    rw [renderFor, renderCondition]
    split
    · next b hb =>
      obtain rfl : e = .const (.bool b) := by
        unfold Expr.asBool? at hb
        split at hb <;> cases hb
        rfl
      refine (FailsFor.pure _).congr ?_
      rw [Expr.objections_const, Value.objections_eq_empty (by nofun)]
    · exact t.render_failsFor e h
  | projection => exact t.render_failsFor e h
  | ordering direction =>
    rw [renderFor]
    unfold renderOrdering
    split
    · next items =>
      rw [renderAll_eq_mapM, Expr.objections_tuple]
      exact (FailsFor.mapM items (t.render_failsFor_of_mem items h.2)).map _
    · exact (t.render_failsFor e h).map _

end Target

/-! ## Reasons that are never given -/

/-- What rendering would say of a tree that reduction does not leave. -/
def Unsupported.isInternal : Unsupported → Bool
  | unresolvedMember _ | callSurvived _ _ | missingArgument _ _ => true
  | _ => false

theorem Expr.Refused.isInternal {e : Expr} {cause : Unsupported} (h : e.Refused cause) :
    cause.isInternal = false := by
  cases h <;> rfl

/-- A failure, if it is one, that is not for an internal reason. -/
def Regular {α : Type} (r : Except Error α) : Prop :=
  ∀ cause, r = .error (.unsupported cause) → cause.isInternal = false

namespace Regular

theorem ok {α : Type} (a : α) : Regular (.ok a) := by
  intro cause h
  cases h

theorem bind {α β : Type} {r : Except Error α} {f : α → Except Error β} (hr : Regular r)
    (hf : ∀ a, Regular (f a)) : Regular (r >>= f) := by
  cases r with
  | error err =>
    intro cause h
    cases h
    exact hr cause rfl
  | ok a => exact hf a

theorem fold (op : BinaryOp) (a b : Value) : Regular (Value.fold op a b) := by
  intro cause h
  unfold Value.fold at h
  split at h
  · unfold Value.concatenate at h
    split at h <;> cases h
    rfl
  · unfold Value.arithmetic at h
    split at h
    · split at h <;> cases h
      rfl
    · split at h
      · split at h
        · split at h <;> cases h
          rfl
        · cases h
          rfl
      · split at h
        · split at h <;> cases h
          rfl
        · cases h
          rfl

theorem reduceColumn (p : Position) (table : Table) (name : String) :
    Regular (Expr.reduceColumn p table name) := by
  intro cause h
  unfold Expr.reduceColumn at h
  split at h
  · cases h
    rfl
  · split at h <;> cases h

theorem reduceMember (name : String) (base : Expr) : Regular (base.reduceMember name) := by
  intro cause h
  unfold Expr.reduceMember at h
  split at h
  · split at h <;> cases h
    rfl
  · cases h
    rfl

theorem reduceUnary (op : UnaryOp) (e : Expr) : Regular (Expr.reduceUnary op e) := by
  cases op with
  | not => exact ok _
  | neg =>
    intro cause h
    rw [Expr.reduceUnary] at h
    unfold Expr.reduceNeg at h
    split at h
    · split at h <;> cases h
      rfl
    · cases h
    · cases h
    · cases h

theorem reduceBinary (op : BinaryOp) (l r : Expr) : Regular (Expr.reduceBinary op l r) := by
  unfold Expr.reduceBinary
  split
  · exact ok _
  split
  · split
    · exact ok _
    split
    · exact ok _
    · next a b _ _ =>
      intro cause h
      refine fold op a b cause ?_
      cases hf : Value.fold op a b with
      | ok v =>
        rw [hf] at h
        cases h
      | error err =>
        rw [hf] at h
        cases h
        rfl
  · exact ok _

theorem reduceIntrinsic (f : Intrinsic) (args : List Expr) :
    Regular (Expr.reduceIntrinsic f args) := by
  intro cause h
  unfold Expr.reduceIntrinsic at h
  split at h <;> cases h
  rfl

theorem reduceHostCall (name : String) (f : HostFn) (args : List Expr) :
    Regular (Expr.reduceHostCall name f args) := by
  intro cause h
  unfold Expr.reduceHostCall at h
  split at h
  · cases h
    rfl
  · split at h <;> cases h

mutual

theorem reduce : ∀ (e : Expr) (p : Position), Regular (e.reduce p)
  | .const v, _ => ok _
  | .column table name, p => reduceColumn p table name
  | .member base name, _ => (reduce base .value).bind (reduceMember name)
  | .unary op e, _ => (reduce e _).bind (reduceUnary op)
  | .binary op l r, _ => (reduce l _).bind fun l => (reduce r _).bind (reduceBinary op l)
  | .call callee args, _ => by
    rw [Expr.reduce]
    split
    · exact (reduceAll args).bind (reduceIntrinsic _)
    · exact (reduceAll args).bind (reduceHostCall _ _)
    · intro cause h
      cases h
      rfl
  | .tuple items, _ => (reduceAll items).bind fun _ => ok _

theorem reduceAll : ∀ items : List Expr, Regular (Expr.reduceAll items)
  | [] => ok _
  | e :: rest => (reduce e .value).bind fun _ => (reduceAll rest).bind fun _ => ok _

end

end Regular

/-- **Compiling fails where something cannot be rendered.** An expression that reduces compiles
unless one of its rendered nodes is refused, and the error is the reason of such a node. Whether it
reduces or not, it is never refused for an internal reason. -/
theorem Target.compile_error_iff (t : Target) (mode : Mode) (e : Expr) (p : Parameters) :
    (∀ e', e.reduce mode.position = .ok e' →
      ((∃ err q, (t.compile mode e).exec p = (.error err, q)) ↔
        ∃ (x : Expr) (cause : Unsupported), x.RenderedIn e' ∧ x.Refused cause) ∧
      ∀ err q, (t.compile mode e).exec p = (.error err, q) →
        ∃ (x : Expr) (cause : Unsupported), x.RenderedIn e' ∧ x.Refused cause ∧
          err = .unsupported cause) ∧
    ∀ cause q, (t.compile mode e).exec p = (.error (.unsupported cause), q) →
      cause.isInternal = false := by
  rw [compile_eq, reduced]
  cases hr : e.reduce mode.position with
  | error err =>
    refine ⟨nofun, fun cause q h => ?_⟩
    cases h
    exact Regular.reduce e _ cause hr
  | ok e' =>
    have hfails := t.renderFor_failsFor mode (Expr.normalAt_reduce e _ hr).1
    rw [pure_bind]
    refine ⟨?_, fun cause q h => ?_⟩
    · rintro _ ⟨⟩
      refine ⟨(hfails.error_iff p).trans exists_comm, fun err q h => ?_⟩
      obtain ⟨cause, ⟨x, hx, hc⟩, herr⟩ := hfails.error h
      exact ⟨x, cause, hx, hc, herr⟩
    · obtain ⟨_, ⟨x, -, hc⟩, ⟨⟩⟩ := hfails.error h
      exact hc.isInternal

/-- A record in a tuple of the list of a membership test is found; the one that is given as the size
of a cast is passed over. -/
theorem Target.compile_error_iff_nested_record :
    let people : Table := ⟨"Person", "Person", [{ name := "Name", ty := .string }]⟩
    let secret : Value := .record [("a", .int 2)]
    let sized : Expr := .intrinsic .cast [people.col "Name", .const (.string "Guid"), .const secret]
    let e : Expr := .inList sized [.int 1, .tuple [.string "x", secret]]
    let t : Target := { dialect := .oracle }
    e.reduce .predicate = .ok e ∧
      (∃ err q, (t.compile .predicate e).exec {} = (.error err, q)) ∧
      ((t.compile .projection sized).exec {}).1.isOk = true := by
  intro people secret sized e t
  have hreduced : e.reduce .predicate = .ok e := rfl
  refine ⟨hreduced, ((t.compile_error_iff .predicate e {}).1 e hreduced).1.2 ?_, by decide⟩
  have htuple : (Value.tuple [.string "x", secret]).HoldsRecord :=
    .tuple (List.mem_cons_of_mem _ List.mem_cons_self) (.record _)
  have hlist : (Value.list [.int 1, .tuple [.string "x", secret]]).HoldsRecord :=
    .list (List.mem_cons_of_mem _ List.mem_cons_self) htuple
  have hf : (Callee.ofIntrinsic .member).intrinsic? = some .member := Callee.intrinsic?_ofIntrinsic _
  exact ⟨.const (.list _), .recordAsValue,
    .argument hf (List.mem_cons_of_mem _ List.mem_cons_self) .root, .record hlist⟩

end SqlCompose
