/-
Compiling an expression does the same wherever it starts: the text is one template
and the values bound are one list, whatever was bound before, and so is the error
if there is one (`compile_relocatable`).

The induction is over the expression; every node puts the texts of its operands
into a frame in the order in which it renders them. Two nodes drop a text they
rendered: a membership test in an empty list, and a range without its upper end.
-/
import SqlCompose.Proofs.Template

namespace SqlCompose

theorem affixes_id : Affixes fun x => x := ⟨"", "", fun x => by simp⟩

/-! ## The frames of the engines -/

namespace Dialect

theorem unary_affixes (op : UnaryOp) : Affixes (unary op) := by
  cases op with
  | not => exact ⟨"(NOT ", ")", fun _ => rfl⟩
  | neg => exact ⟨"(-", ")", fun _ => rfl⟩

theorem nullTest_affixes (op : BinaryOp) : Affixes (nullTest op) := ⟨"(", _, fun _ => rfl⟩

theorem binary_infixes (d : Dialect) (op : BinaryOp) : Infixes (d.binary op) := by
  by_cases hop : op = .concat
  · subst hop
    cases d with
    | mySql => exact ⟨"CONCAT(", ", ", ")", fun _ _ => rfl⟩
    | sqlServer => exact ⟨"(", " + ", ")", fun _ _ => rfl⟩
    | _ => exact ⟨"(", " || ", ")", fun _ _ => rfl⟩
  · refine ⟨"(", " " ++ op.symbol ++ " ", ")", fun x y => ?_⟩
    cases op <;> first | exact absurd rfl hop | simp [binary, String.append_assoc]

theorem trim_affixes (d : Dialect) : Affixes d.trim := by
  cases d with
  | sqlServer => exact ⟨"LTRIM(RTRIM(", "))", fun _ => rfl⟩
  | _ => exact ⟨"TRIM(", ")", fun _ => rfl⟩

end Dialect

namespace Target

theorem applied_affixes (function : String) : Affixes fun x => applied function [x] :=
  ⟨function ++ "(", ")", fun x => by simp [applied, commaList]⟩

theorem applied_infixes (function : String) : Infixes fun x y => applied function [x, y] :=
  ⟨function ++ "(", ", ", ")", fun x y => by
    simp [applied, commaList, joinWith_cons_cons, String.append_assoc]⟩

theorem functionOf_affixes (t : Target) (f : Intrinsic) : Affixes (t.functionOf f) := by
  cases f with
  | trim => exact t.dialect.trim_affixes
  | _ => exact applied_affixes _

theorem memberTest_infixes (list : Expr) : Infixes fun x y => memberTest x list y := by
  unfold memberTest
  cases isConstantList list with
  | true => exact ⟨"(", " IN ", ")", fun _ _ => rfl⟩
  | false => exact ⟨"(", " IN (", "))", fun _ _ => rfl⟩

/-! ## Constants -/

mutual

theorem renderValue_relocatable (t : Target) : ∀ v : Value, Relocatable (t.renderValue v)
  | .null | .bool _ | .sql _ => .pure _
  | .record _ => .refuse _
  | .list items | .tuple items => by
    rw [renderValue, renderValues_eq_mapM]
    exact .commaList_affix ⟨"(", ")", fun _ => rfl⟩ (renderValue_relocatable_of_mem t items)
  | .int _ | .float _ | .decimal _ | .string _ | .dateTime _ | .guid _ | .binary _ => .bindValue _

theorem renderValue_relocatable_of_mem (t : Target) :
    ∀ (items : List Value), ∀ v ∈ items, Relocatable (t.renderValue v)
  | [] => nofun
  | w :: rest => List.forall_mem_cons.2
    ⟨renderValue_relocatable t w, renderValue_relocatable_of_mem t rest⟩

end

/-! ## Expressions -/

theorem writtenOr_relocatable {m : Binder String} (hm : Relocatable m) :
    ∀ written : Option String, Relocatable (writtenOr written m)
  | some _ => .pure _
  | none => hm

/-- A range test binds its operand, its lower and its upper end, in this order. -/
theorem rangeTest_relocatable {m n o : Binder String} (hm : Relocatable m) (hn : Relocatable n)
    (ho : Relocatable o) :
    Relocatable (do
      let operand ← m
      let low ← n
      let high ← o
      return rangeTest operand low high) := by
  have hends := hn.fix ⟨"", " AND ", "", fun _ _ => rfl⟩ ho
  have h := hm.fix ⟨"(", " BETWEEN ", ")", fun _ _ => rfl⟩ hends
  simpa [rangeTest, String.append_assoc] using h

theorem renderCall_relocatable (t : Target) (f : Intrinsic) {args : List Expr}
    (h : ∀ e ∈ args, Relocatable (t.render e)) : Relocatable (t.renderCall f args) := by
  match args with
  | [] =>
    cases f with
    | count => exact .pure _
    | _ => exact .refuse _
  | x :: rest =>
    obtain ⟨hx, hrest⟩ := List.forall_mem_cons.1 h
    cases f with
    | named =>
      rw [renderCall]
      split
      · exact .refuse _
      · exact hx.affix ⟨"", _, fun x => by simp [String.append_assoc]; rfl⟩
    | cast =>
      rw [renderCall]
      split
      · exact .refuse _
      · exact hx.affix ⟨"CAST(", _, fun x => by simp [String.append_assoc]; rfl⟩
    | between =>
      rw [renderCall]
      match rest with
      | [] => exact hx.andThen (.refuse _)
      | [low] =>
        have hlow := writtenOr_relocatable (hrest low (by simp)) (t.writtenBound? low)
        simpa [Functor.discard, map_const] using hx.andThen (hlow.andThen (.refuse (.missingArgument .between 2)))
      | low :: high :: _ =>
        exact rangeTest_relocatable hx (writtenOr_relocatable (hrest low (by simp)) _)
          (writtenOr_relocatable (hrest high (by simp)) _)
    | member =>
      rw [renderCall]
      match rest with
      | [] => exact hx.andThen (.refuse _)
      | list :: _ =>
        cases hempty : isEmptyList list with
        | true => simpa [hempty] using hx.andThen (.pure _)
        | false => simpa [hempty] using hx.fix (memberTest_infixes list) (hrest list (by simp))
    | like =>
      rw [renderCall]
      match rest with
      | [] => exact hx.andThen (.refuse _)
      | pattern :: _ => exact hx.fix ⟨"(", " LIKE ", ")", fun _ _ => rfl⟩ (hrest pattern (by simp))
    | ifNull =>
      rw [renderCall]
      match rest with
      | [] => exact hx.andThen (.refuse _)
      | fallback :: _ => exact hx.fix (applied_infixes _) (hrest fallback (by simp))
    | _ => exact hx.affix (functionOf_affixes t _)

mutual

theorem render_relocatable (t : Target) : ∀ e : Expr, Relocatable (t.render e)
  | .column _ _ => .pure _
  | .member _ _ => .refuse _
  | .const v => renderValue_relocatable t v
  | .unary op e => (render_relocatable t e).affix (Dialect.unary_affixes op)
  | .binary op l r => by
    have hl := render_relocatable t l
    have hr := render_relocatable t r
    rw [render]
    split
    · exact hl.affix (Dialect.nullTest_affixes op)
    split
    · exact hr.affix (Dialect.nullTest_affixes op)
    · exact hl.fix (t.dialect.binary_infixes op) hr
  | .call callee args => by
    rw [render]
    split
    · exact renderCall_relocatable t _ (render_relocatable_of_mem t args)
    · exact .refuse _
  | .tuple items => by
    rw [render, renderAll_eq_mapM]
    exact .commaList_affix affixes_id (render_relocatable_of_mem t items)

theorem render_relocatable_of_mem (t : Target) :
    ∀ (items : List Expr), ∀ e ∈ items, Relocatable (t.render e)
  | [] => nofun
  | e :: rest => List.forall_mem_cons.2
    ⟨render_relocatable t e, render_relocatable_of_mem t rest⟩

end

theorem renderFor_relocatable (t : Target) (mode : Mode) (e : Expr) :
    Relocatable (t.renderFor mode e) := by
  cases mode with
  | predicate =>
    rw [renderFor, renderCondition]
    split
    · exact .pure _
    · exact render_relocatable t e
  | projection => exact render_relocatable t e
  | ordering direction =>
    rw [renderFor]
    unfold renderOrdering
    split
    · next items =>
      rw [renderAll_eq_mapM]
      exact .commaList direction.suffix items (render_relocatable_of_mem t items)
    · exact (render_relocatable t e).affix ⟨"", direction.suffix, fun x => by simp⟩

theorem relocatable_compile (t : Target) (mode : Mode) (e : Expr) :
    Relocatable (t.compile mode e) := by
  rw [compile_eq, reduced]
  split
  · next e' _ => simpa using t.renderFor_relocatable mode e'
  · exact .throw _

end Target

/-- **Compiling does the same wherever it starts.** There are a template, or an error, and a list of
values such that from every table the text is the template filled with the next names, or the error
is that error, and the table gains the values in order under these names. The holes of the template
are in order, and each has a value. -/
theorem compile_relocatable (t : Target) (mode : Mode) (e : Expr) :
    ∃ (outcome : Except Error Template) (vs : List Value),
      (∀ T, outcome = .ok T → T.holes.Pairwise (· < ·) ∧ ∀ i ∈ T.holes, i < vs.length) ∧
      ∀ p : Parameters,
        ((t.compile mode e).exec p).1 = outcome.map (Template.fill p.tag p.size) ∧
        ((t.compile mode e).exec p).2.tag = p.tag ∧
        ((t.compile mode e).exec p).2.entries =
          p.entries ++ vs.mapIdx fun i v => (Parameters.key p.tag (p.size + i), v) := by
  obtain ⟨⟨outcome, vs, ordered⟩, hs⟩ := t.relocatable_compile mode e
  refine ⟨outcome, vs, fun T hT => ordered hT, fun p => ?_⟩
  rw [hs p]
  exact ⟨rfl, rfl, rfl⟩

end SqlCompose
