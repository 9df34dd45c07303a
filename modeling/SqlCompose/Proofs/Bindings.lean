/-
The constants that rendering binds, read off the expression.

`Target.bindings` lists them in order, and says of each whether its name gets into
the text: only the operand of a membership test in an empty list is rendered for
nothing. `Target.renderFor_records` ties the list to rendering: where that succeeds
it binds these constants and no others, and the names of the written ones stand in
the text; where it fails, it is for a reason of the expression.
-/
import SqlCompose.Proofs.Standing
import SqlCompose.Proofs.Template

namespace SqlCompose

/-- A constant that rendering binds. -/
structure Binding where
  value : Value
  /-- Whether its name gets into the text. -/
  written : Bool := true

/-- The binding under a text that is dropped. -/
def Binding.drop (b : Binding) : Binding := { b with written := false }

/-! ## The constants of an expression -/

mutual

/-- The constants inside a constant that are bound. -/
def Value.bindings : Value → List Binding
  | .null | .bool _ | .sql _ | .record _ => []
  | .list items | .tuple items => Value.allBindings items
  | v => [{ value := v }]

def Value.allBindings : List Value → List Binding
  | [] => []
  | v :: rest => v.bindings ++ Value.allBindings rest

end

namespace Target

mutual

/-- The constants that rendering a reduced expression binds, in order. -/
def bindings (t : Target) : Expr → List Binding
  | .column _ _ | .member _ _ => []
  | .const v => v.bindings
  | .unary _ e => bindings t e
  | .binary _ l r => bindings t l ++ bindings t r
  | .call callee args =>
    match callee.intrinsic? with
    | some f => callBindings t f args
    | none => []
  | .tuple items => allBindings t items

def allBindings (t : Target) : List Expr → List Binding
  | [] => []
  | e :: rest => bindings t e ++ allBindings t rest

/-- Names, types and ends of ranges that are written out are not bound. -/
def callBindings (t : Target) (f : Intrinsic) : List Expr → List Binding
  | [] => []
  | x :: rest =>
    match f with
    | .between =>
      match rest with
      | low :: high :: _ =>
        bindings t x ++ ((if (t.writtenBound? low).isSome then [] else bindings t low) ++
          if (t.writtenBound? high).isSome then [] else bindings t high)
      | _ => []
    | .member =>
      match rest with
      | list :: _ =>
        if isEmptyList list then (bindings t x).map Binding.drop
        else bindings t x ++ bindings t list
      | _ => []
    | .like | .ifNull =>
      match rest with
      | y :: _ => bindings t x ++ bindings t y
      | _ => []
    | _ => bindings t x

end

end Target

theorem Value.allBindings_eq_flatMap (items : List Value) :
    Value.allBindings items = items.flatMap Value.bindings := by
  induction items with
  | nil => rfl
  | cons v rest ih => rw [Value.allBindings, List.flatMap_cons, ih]

theorem Target.allBindings_eq_flatMap (t : Target) (items : List Expr) :
    t.allBindings items = items.flatMap t.bindings := by
  induction items with
  | nil => rfl
  | cons e rest ih => rw [Target.allBindings, List.flatMap_cons, ih]

/-! ## Computations with a record of their bindings -/

/-- The names of the written ones among `bs` stand in the text, if they are bound after `p`. -/
def Shows (p : Parameters) (bs : List Binding) (text : String) : Prop :=
  ∀ i b, bs[i]? = some b → b.written = true → StandsIn (Parameters.key p.tag (p.size + i)) text

namespace Shows

variable {p : Parameters} {bs cs : List Binding} {text text' : String}

theorem nil (p : Parameters) (text : String) : Shows p [] text := by
  intro i b h
  simp at h

theorem mono (h : Shows p bs text) (ht : StandsIn text text') : Shows p bs text' :=
  fun i b hb hw => (h i b hb hw).trans ht

theorem dropped (p : Parameters) (bs : List Binding) (text : String) :
    Shows p (bs.map Binding.drop) text := by
  intro i b h hw
  obtain ⟨b, -, rfl⟩ := List.mem_map.1 (List.mem_of_getElem? h)
  cases hw

theorem append (h : Shows p bs text) (h' : Shows (p.extend (bs.map (·.value))) cs text) :
    Shows p (bs ++ cs) text := by
  intro i b hb hw
  by_cases hi : i < bs.length
  · rw [List.getElem?_append_left hi] at hb
    exact h i b hb hw
  · rw [List.getElem?_append_right (by omega)] at hb
    have hkey := h' _ b hb hw
    rw [Parameters.size_extend, List.length_map] at hkey
    rwa [show p.size + bs.length + (i - bs.length) = p.size + i by omega] at hkey

end Shows

/-- Success binds the constants in `bs` and writes the names of those that are written; failure is
for a reason of the expression. -/
structure Records (m : Binder String) (bs : List Binding) : Prop where
  ok : ∀ {p q : Parameters} {text : String}, m.exec p = (.ok text, q) →
    q = p.extend (bs.map (·.value)) ∧ Shows p bs text
  error : ∀ {p q : Parameters} {err : Error}, m.exec p = (.error err, q) →
    ∃ cause, err = .unsupported cause

namespace Records

variable {m n : Binder String} {bs cs : List Binding}

theorem pure (text : String) : Records (Pure.pure text) [] where
  ok h := by
    cases h
    exact ⟨by simp, .nil _ _⟩
  error h := by cases h

theorem refuse (cause : Unsupported) (bs : List Binding) : Records (.refuse cause) bs where
  ok h := by cases h
  error h := by
    cases h
    exact ⟨cause, rfl⟩

theorem bindValue (v : Value) : Records (.bindValue v) [{ value := v }] where
  ok {p q text} h := by
    cases h
    refine ⟨by simp, fun i b hb _ => ?_⟩
    obtain ⟨rfl, -⟩ : i = 0 ∧ _ := by simpa [List.getElem?_singleton] using hb
    exact .refl _
  error h := by cases h

/-- Two computations one after the other, whose texts both stand in what is made of them. -/
theorem seq (hm : Records m bs) (hn : Records n cs) {f : String → String → String}
    (hf : ∀ x y, StandsIn x (f x y) ∧ StandsIn y (f x y)) :
    Records (do
      let x ← m
      let y ← n
      return f x y) (bs ++ cs) where
  ok {p q text} h := by
    obtain ⟨x, p', hx, h⟩ := Binder.exec_bind_eq_ok h
    obtain ⟨y, p'', hy, h⟩ := Binder.exec_bind_eq_ok h
    obtain ⟨rfl, hshow⟩ := hm.ok hx
    obtain ⟨rfl, hshow'⟩ := hn.ok hy
    cases h
    exact ⟨by simp, (hshow.mono (hf x y).1).append (hshow'.mono (hf x y).2)⟩
  error {p q err} h := by
    rcases Binder.exec_bind_eq_error h with h | ⟨x, p', -, h⟩
    · exact hm.error h
    rcases Binder.exec_bind_eq_error h with h | ⟨y, p'', -, h⟩
    · exact hn.error h
    · cases h

theorem map (hm : Records m bs) {f : String → String} (hf : ∀ x, StandsIn x (f x)) :
    Records (do return f (← m)) bs where
  ok {p q text} h := by
    obtain ⟨x, p', hx, h⟩ := Binder.exec_bind_eq_ok h
    obtain ⟨rfl, hshow⟩ := hm.ok hx
    cases h
    exact ⟨rfl, hshow.mono (hf x)⟩
  error {p q err} h := by
    rcases Binder.exec_bind_eq_error h with h | ⟨x, p', -, h⟩
    · exact hm.error h
    · cases h

theorem andThen (hm : Records m bs) (hn : Records n cs) :
    Records (m >>= fun _ => n) (bs.map Binding.drop ++ cs) where
  ok {p q text} h := by
    obtain ⟨x, p', hx, h⟩ := Binder.exec_bind_eq_ok h
    obtain ⟨rfl, -⟩ := hm.ok hx
    obtain ⟨rfl, hshow⟩ := hn.ok h
    have hvalues : (bs.map Binding.drop).map (·.value) = bs.map (·.value) := by
      simp [Binding.drop]
    refine ⟨by simp [hvalues], (Shows.dropped p bs text).append ?_⟩
    rwa [hvalues]
  error {p q err} h := by
    rcases Binder.exec_bind_eq_error h with h | ⟨x, p', -, h⟩
    · exact hm.error h
    · exact hn.error h

/-- A computation that is refused in the end binds nothing that counts. -/
theorem thenRefuse (hm : Records m bs) (cause : Unsupported) (cs : List Binding) :
    Records (m >>= fun _ => .refuse cause) cs where
  ok {p q text} h := by
    obtain ⟨x, p', -, h⟩ := Binder.exec_bind_eq_ok h
    cases h
  error := (hm.andThen (refuse cause [])).error

theorem commaList {α : Type} {f : α → Binder String} {g : α → List Binding} (suffix : String)
    (hs : continuesName suffix = false) :
    ∀ (items : List α), (∀ x ∈ items, Records (f x) (g x)) →
      Records (do return SqlCompose.commaList ((← items.mapM f).map (· ++ suffix)))
        (items.flatMap g)
  | [], _ => by simpa [SqlCompose.commaList] using pure ""
  | [x], h => by
    have hx := (h x (by simp)).map fun y => (StandsIn.refl y).append hs
    simpa [SqlCompose.commaList] using hx
  | x :: y :: rest, h => by
    have hx := (h x (by simp)).map fun y => (StandsIn.refl y).append hs
    have hrest := commaList suffix hs (y :: rest) fun z hz => h z (by simp [hz])
    have hseq := hx.seq hrest (f := fun x y => x ++ ", " ++ y) fun x y =>
      ⟨(StandsIn.refl x).separate ", " (by decide) y, .last _ _⟩
    -- The rest is not empty, so a comma follows the first text.
    simpa [SqlCompose.commaList, joinWith_cons_cons, String.append_assoc] using hseq

end Records

/-! ## The frames of the engines -/

theorem standsIn_frame {f : String → String → String} (before between after : String)
    (hb : between ≠ "" ∧ continuesName between = false) (ha : continuesName after = false)
    (hf : ∀ x y, f x y = before ++ x ++ between ++ y ++ after) (x y : String) :
    StandsIn x (f x y) ∧ StandsIn y (f x y) := by
  rw [hf]
  exact ⟨((StandsIn.last before x).separate between hb y).append ha, .between _ y after ha⟩

namespace Dialect

theorem standsIn_unary (op : UnaryOp) (x : String) : StandsIn x (unary op x) := by
  cases op <;> exact .between _ x ")" rfl

theorem standsIn_nullTest (op : BinaryOp) (x : String) : StandsIn x (nullTest op x) := by
  refine .between "(" x _ ?_
  split <;> rfl

theorem standsIn_binary (d : Dialect) (op : BinaryOp) (x y : String) :
    StandsIn x (d.binary op x y) ∧ StandsIn y (d.binary op x y) := by
  by_cases hop : op = .concat
  · subst hop
    cases d with
    | mySql => exact standsIn_frame "CONCAT(" ", " ")" (by decide) rfl (fun _ _ => rfl) x y
    | sqlServer => exact standsIn_frame "(" " + " ")" (by decide) rfl (fun _ _ => rfl) x y
    | _ => exact standsIn_frame "(" " || " ")" (by decide) rfl (fun _ _ => rfl) x y
  · have hbinary : d.binary op x y = "(" ++ x ++ " " ++ op.symbol ++ " " ++ y ++ ")" := by
      cases op <;> first | exact absurd rfl hop | rfl
    have hleft := (StandsIn.last "(" x).separate " " (by decide) op.symbol
    rw [hbinary]
    exact ⟨(hleft.separate " " (by decide) y).append rfl, .between _ y ")" rfl⟩

theorem standsIn_trim (d : Dialect) (x : String) : StandsIn x (d.trim x) := by
  cases d with
  | sqlServer => exact .between _ x "))" rfl
  | _ => exact .between _ x ")" rfl

end Dialect

namespace Target

theorem standsIn_applied (function x : String) : StandsIn x (applied function [x]) :=
  .between _ x ")" rfl

theorem standsIn_applied₂ (function x y : String) :
    StandsIn x (applied function [x, y]) ∧ StandsIn y (applied function [x, y]) :=
  standsIn_frame (f := fun x y => applied function [x, y]) (function ++ "(") ", " ")" (by decide)
    rfl (fun x y => by simp [applied, commaList, joinWith_cons_cons, String.append_assoc]) x y

theorem standsIn_functionOf (t : Target) (f : Intrinsic) (x : String) :
    StandsIn x (t.functionOf f x) := by
  cases f with
  | trim => exact t.dialect.standsIn_trim x
  | _ => exact standsIn_applied _ x

theorem standsIn_memberTest (list : Expr) (x y : String) :
    StandsIn x (memberTest x list y) ∧ StandsIn y (memberTest x list y) := by
  unfold memberTest
  cases isConstantList list with
  | true => exact standsIn_frame "(" " IN " ")" (by decide) rfl (fun _ _ => rfl) x y
  | false => exact standsIn_frame "(" " IN (" "))" (by decide) rfl (fun _ _ => rfl) x y

/-! ## Rendering -/

mutual

theorem renderValue_records (t : Target) : ∀ v : Value, Records (t.renderValue v) v.bindings
  | .null | .bool _ | .sql _ => .pure _
  | .record _ => .refuse _ _
  | .list items | .tuple items => by
    have h := Records.commaList "" rfl items (renderValue_records_of_mem t items)
    rw [renderValue, renderValues_eq_mapM, Value.bindings, Value.allBindings_eq_flatMap]
    simpa using h.map fun x => .between "(" x ")" rfl
  | .int _ | .float _ | .decimal _ | .string _ | .dateTime _ | .guid _ | .binary _ => .bindValue _

theorem renderValue_records_of_mem (t : Target) :
    ∀ (items : List Value), ∀ v ∈ items, Records (t.renderValue v) v.bindings
  | [] => nofun
  | w :: rest => List.forall_mem_cons.2
    ⟨renderValue_records t w, renderValue_records_of_mem t rest⟩

end

theorem writtenOr_records {m : Binder String} {bs : List Binding} (hm : Records m bs) :
    ∀ written : Option String,
      Records (writtenOr written m) (if written.isSome then [] else bs)
  | some text => .pure text
  | none => hm

theorem rangeTest_records {m n o : Binder String} {bs cs ds : List Binding} (hm : Records m bs)
    (hn : Records n cs) (ho : Records o ds) :
    Records (do
      let operand ← m
      let low ← n
      let high ← o
      return rangeTest operand low high) (bs ++ (cs ++ ds)) := by
  have hends := hn.seq ho (standsIn_frame "" " AND " "" (by decide) rfl fun _ _ => rfl)
  have h := hm.seq hends (standsIn_frame "(" " BETWEEN " ")" (by decide) rfl fun _ _ => rfl)
  simpa [rangeTest, String.append_assoc] using h

theorem bindings_of_isNull (t : Target) {e : Expr} (h : e.isNull = true) : t.bindings e = [] := by
  cases e with
  | const v => cases v <;> first | rfl | cases h
  | _ => cases h

theorem renderCall_records (t : Target) (f : Intrinsic) {args : List Expr}
    (h : ∀ e ∈ args, Records (t.render e) (t.bindings e)) :
    Records (t.renderCall f args) (t.callBindings f args) := by
  match args with
  | [] =>
    cases f with
    | count => exact .pure _
    | _ => exact .refuse _ _
  | x :: rest =>
    obtain ⟨hx, hrest⟩ := List.forall_mem_cons.1 h
    cases f with
    | named =>
      rw [renderCall]
      split
      · exact .refuse _ _
      · exact hx.map fun y => (StandsIn.refl y).separate " AS " (by decide) _
    | cast =>
      rw [renderCall]
      split
      · exact .refuse _ _
      · exact hx.map fun y =>
          ((StandsIn.last "CAST(" y).separate " AS " (by decide) _).append rfl
    | between =>
      rw [renderCall]
      match rest with
      | [] => exact hx.thenRefuse _ _
      | [low] =>
        have hlow := writtenOr_records (hrest low (by simp)) (t.writtenBound? low)
        have h := (hx.andThen hlow).thenRefuse (.missingArgument .between 2)
          (t.callBindings .between [x, low])
        simpa [Functor.discard, map_const] using h
      | low :: high :: _ =>
        exact rangeTest_records hx (writtenOr_records (hrest low (by simp)) _)
          (writtenOr_records (hrest high (by simp)) _)
    | member =>
      rw [renderCall]
      match rest with
      | [] => exact hx.thenRefuse _ _
      | list :: _ =>
        rw [callBindings]
        cases hempty : isEmptyList list with
        | true => simpa [hempty] using hx.andThen (.pure (t.dialect.binary .eq "1" "0"))
        | false => simpa [hempty] using hx.seq (hrest list (by simp)) (standsIn_memberTest list)
    | like =>
      rw [renderCall]
      match rest with
      | [] => exact hx.thenRefuse _ _
      | pattern :: _ =>
        exact hx.seq (hrest pattern (by simp))
          (standsIn_frame "(" " LIKE " ")" (by decide) rfl fun _ _ => rfl)
    | ifNull =>
      rw [renderCall]
      match rest with
      | [] => exact hx.thenRefuse _ _
      | fallback :: _ =>
        exact hx.seq (hrest fallback (by simp)) (standsIn_applied₂ t.dialect.nullFunction)
    | _ => exact hx.map (t.standsIn_functionOf _)

mutual

theorem render_records (t : Target) : ∀ e : Expr, Records (t.render e) (t.bindings e)
  | .column _ _ => .pure _
  | .member _ _ => .refuse _ _
  | .const v => renderValue_records t v
  | .unary op e => (render_records t e).map (Dialect.standsIn_unary op)
  | .binary op l r => by
    have hl := render_records t l
    have hr := render_records t r
    rw [render, bindings]
    split
    · next h =>
      rw [t.bindings_of_isNull (Bool.and_eq_true_iff.1 h).2, List.append_nil]
      exact hl.map (Dialect.standsIn_nullTest op)
    split
    · next h =>
      rw [t.bindings_of_isNull (Bool.and_eq_true_iff.1 h).2, List.nil_append]
      exact hr.map (Dialect.standsIn_nullTest op)
    · exact hl.seq hr (t.dialect.standsIn_binary op)
  | .call callee args => by
    rw [render, bindings]
    cases callee.intrinsic? with
    | some f => exact renderCall_records t f (render_records_of_mem t args)
    | none => exact .refuse _ _
  | .tuple items => by
    have h := Records.commaList "" rfl items (render_records_of_mem t items)
    rw [render, renderAll_eq_mapM, bindings, allBindings_eq_flatMap]
    simpa using h

theorem render_records_of_mem (t : Target) :
    ∀ (items : List Expr), ∀ e ∈ items, Records (t.render e) (t.bindings e)
  | [] => nofun
  | e :: rest => List.forall_mem_cons.2 ⟨render_records t e, render_records_of_mem t rest⟩

end

/-- **Rendering binds the constants of the expression.** -/
theorem renderFor_records (t : Target) (mode : Mode) (e : Expr) :
    Records (t.renderFor mode e) (t.bindings e) := by
  cases mode with
  | predicate =>
    rw [renderFor, renderCondition]
    split
    · next b h =>
      obtain rfl : e = .const (.bool b) := by
        cases e with
        | const v => cases v <;> first | cases h; rfl | cases h
        | _ => cases h
      exact .pure _
    · exact t.render_records e
  | projection => exact t.render_records e
  | ordering direction =>
    have hsuffix : continuesName direction.suffix = false := by cases direction <;> rfl
    rw [renderFor]
    unfold renderOrdering
    split
    · next items =>
      rw [renderAll_eq_mapM, bindings, allBindings_eq_flatMap]
      exact .commaList direction.suffix hsuffix items (t.render_records_of_mem items)
    · exact (t.render_records e).map fun x => (StandsIn.refl x).append hsuffix

end Target

end SqlCompose
