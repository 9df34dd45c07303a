/-
Compiling for another engine.

Engines differ in what they write, not in what they accept or bind. An expression is
alike itself, so two targets with the same options render it in step (`Proofs/Coupling`):
either both fail, for the same reason, or neither does, and the values bound are the
same ones in the same order. Their names differ by the engine's tag alone
(`compile_portable`).
-/
import SqlCompose.Proofs.Coupling
import SqlCompose.Proofs.Ledger

namespace SqlCompose

/-! ## Expressions are alike themselves -/

mutual

theorem Value.Alike.refl : ∀ v : Value, v.Alike Eq v
  | .null => .null
  | .bool b => .bool b
  | .sql text => .sql text
  | .record fields => .record fields
  | .list items => .list (Value.AllAlike.refl items)
  | .tuple items => .tuple (Value.AllAlike.refl items)
  | .int _ | .float _ | .decimal _ | .string _ | .dateTime _ | .guid _ | .binary _ =>
    .bound rfl rfl rfl

theorem Value.AllAlike.refl : ∀ items : List Value, Value.AllAlike Eq items items
  | [] => .nil
  | v :: rest => .cons (Value.Alike.refl v) (Value.AllAlike.refl rest)

end

mutual

theorem Expr.Alike.refl : ∀ e : Expr, e.Alike Eq e
  | .column table name => .column table name
  | .member base name => .member name (Expr.Alike.refl base)
  | .const v => .const (Value.Alike.refl v)
  | .binary op l r => .binary op (Expr.Alike.refl l) (Expr.Alike.refl r)
  | .unary op e => .unary op (Expr.Alike.refl e)
  | .call callee args => .call callee (Expr.AllAlike.refl args) fun _ _ _ => rfl
  | .tuple items => .tuple (Expr.AllAlike.refl items)

theorem Expr.AllAlike.refl : ∀ items : List Expr, Expr.AllAlike Eq items items
  | [] => .nil
  | e :: rest => .cons (Expr.Alike.refl e) (Expr.AllAlike.refl rest)

end

/-! ## Two engines -/

theorem Matching.error_iff {α : Type} {same : Prop} :
    ∀ {x y : Except Error α}, Matching same x y → ∀ err, x = .error err ↔ y = .error err
  | .ok _, .ok _, _ => fun _ => ⟨nofun, nofun⟩
  | .error a, .error b, h => fun err => by
    obtain rfl : a = b := h
    rfl

theorem Matching.ok_iff {α : Type} {same : Prop} :
    ∀ {x y : Except Error α}, Matching same x y → ((∃ a, x = .ok a) ↔ ∃ b, y = .ok b)
  | .ok a, .ok b, _ => ⟨fun _ => ⟨b, rfl⟩, fun _ => ⟨a, rfl⟩⟩
  | .error _, .error _, _ => ⟨nofun, nofun⟩

namespace Target

/-- Reduction does not look at the engine, so compiling is in step as rendering is. -/
theorem compile_coupled (t t' : Target) (h : t.options = t'.options) (mode : Mode) (e : Expr) :
    Coupled Eq (t = t') (t.compile mode e) (t'.compile mode e) := by
  have hp : Paired Eq t t' := ⟨h, .inr fun _ _ hv => hv⟩
  rw [compile_eq, compile_eq, reduced]
  cases e.reduce mode.position with
  | error err => exact fun p q hl => ⟨rfl, hl⟩
  | ok r => exact renderFor_coupled hp mode (.refl r)

/-- The names that compiling gives out first are those of the engine, in order. -/
theorem keys_compile (t : Target) (mode : Mode) (e : Expr) (tag : String) :
    let params := ((t.compile mode e).exec { tag := tag }).2
    params.keys = (List.range params.values.length).map (Parameters.key tag) := by
  intro params
  obtain ⟨sketch, h⟩ := t.relocatable_compile mode e
  have hparams : params = .extend { tag := tag } sketch.values := congrArg Prod.snd (h _)
  rw [hparams, Parameters.keys_extend, Parameters.values_extend]
  rfl

end Target

/-- **Engines accept and bind the same.** From empty parameters, an expression compiles for one engine
exactly if it does for another with the same options, and fails with the same error; the values bound
are the same in the same order, and their names are the same but for the engine's tag. -/
theorem compile_portable (options : Options) (d d' : Dialect) (mode : Mode) (e : Expr) :
    let r := (Target.compile ⟨d, options⟩ mode e).exec { tag := d.parameterTag }
    let r' := (Target.compile ⟨d', options⟩ mode e).exec { tag := d'.parameterTag }
    ((∃ text, r.1 = .ok text) ↔ ∃ text, r'.1 = .ok text) ∧
    (∀ err, r.1 = .error err ↔ r'.1 = .error err) ∧
    r.2.values = r'.2.values ∧
    ∃ numbers : List Nat, r.2.keys = numbers.map (Parameters.key d.parameterTag) ∧
      r'.2.keys = numbers.map (Parameters.key d'.parameterTag) := by
  intro r r'
  have hstart : Ledgers Eq ((⟨d, options⟩ : Target) = ⟨d', options⟩)
      { tag := d.parameterTag } { tag := d'.parameterTag } :=
    ⟨.nil, fun h => ⟨congrArg (·.dialect.parameterTag) h, rfl⟩⟩
  obtain ⟨hmatch, hledgers⟩ :=
    Target.compile_coupled ⟨d, options⟩ ⟨d', options⟩ rfl mode e _ _ hstart
  have hvalues : r.2.values = r'.2.values := List.forall₂_eq_eq_eq ▸ hledgers.values
  refine ⟨hmatch.ok_iff, hmatch.error_iff, hvalues, List.range r.2.values.length, ?_, ?_⟩
  · exact Target.keys_compile _ mode e _
  · rw [hvalues]
    exact Target.keys_compile _ mode e _

end SqlCompose
