/-
Templates: texts with holes for the parameters they bind.

A computation is `Relocatable` if there are a template and a list of values, both
independent of the parameters it starts with, such that it binds the values in
order and fills hole `i` with the name of value `i`. A `Sketch` is such a pair,
or the error the computation ends with. Its holes are in order, so every name
occurs at most once in the text, and from left to right as it was given out.

The lemmas are the forms in which rendering puts texts together: side by side, in
a frame of fixed texts, and in comma lists.
-/
import Mathlib.Data.List.Basic
import SqlCompose.Proofs.Binder

namespace SqlCompose

/-! ## Parameters with more values -/

namespace Parameters

/-- The table with these values bound in order. -/
def extend (p : Parameters) (vs : List Value) : Parameters :=
  { p with entries := p.entries ++ vs.mapIdx fun i v => (key p.tag (p.size + i), v) }

@[simp] theorem tag_extend (p : Parameters) (vs : List Value) : (p.extend vs).tag = p.tag := rfl

@[simp] theorem size_extend (p : Parameters) (vs : List Value) :
    (p.extend vs).size = p.size + vs.length := by
  simp [extend, size]

@[simp] theorem extend_nil (p : Parameters) : p.extend [] = p := by simp [extend]

@[simp] theorem extend_singleton (p : Parameters) (v : Value) : p.extend [v] = p.push v := by
  simp [extend, push, nextKey]

@[simp] theorem extend_extend (p : Parameters) (vs ws : List Value) :
    (p.extend vs).extend ws = p.extend (vs ++ ws) := by
  simp [extend, size, List.mapIdx_append, Nat.add_assoc, Nat.add_comm]

end Parameters

/-! ## Templates -/

/-- Text as it is, or the place of a parameter. -/
inductive Piece where
  | text (s : String)
  | hole (i : Nat)
  deriving DecidableEq, Repr

/-- A piece in a statement whose parameters start at number `start`. -/
def Piece.fill (tag : String) (start : Nat) : Piece → String
  | text s => s
  | hole i => Parameters.key tag (start + i)

def Piece.shift (k : Nat) : Piece → Piece
  | text s => text s
  | hole i => hole (i + k)

def Piece.hole? : Piece → Option Nat
  | text _ => none
  | hole i => some i

abbrev Template := List Piece

namespace Template

def fill (tag : String) (start : Nat) : Template → String
  | [] => ""
  | x :: rest => x.fill tag start ++ fill tag start rest

def holes (T : Template) : List Nat := T.filterMap Piece.hole?

def shift (k : Nat) (T : Template) : Template := T.map (Piece.shift k)

/-- Holes from left to right in the order of their numbers, all below `n`. -/
def Ordered (T : Template) (n : Nat) : Prop := T.holes.Pairwise (· < ·) ∧ ∀ i ∈ T.holes, i < n

@[simp] theorem fill_append (tag : String) (start : Nat) (T U : Template) :
    fill tag start (T ++ U) = fill tag start T ++ fill tag start U := by
  induction T with
  | nil => simp [fill]
  | cons x T ih => simp [fill, ih, String.append_assoc]

@[simp] theorem fill_shift (tag : String) (start k : Nat) (T : Template) :
    fill tag start (T.shift k) = fill tag (start + k) T := by
  induction T with
  | nil => rfl
  | cons x T ih =>
    rw [shift] at ih
    cases x with
    | text s => simp [shift, fill, ih, Piece.shift, Piece.fill]
    | hole i =>
      have : start + (i + k) = start + k + i := by omega
      simp [shift, fill, ih, Piece.shift, Piece.fill, this]

theorem holes_append (T U : Template) : (T ++ U).holes = T.holes ++ U.holes := by simp [holes]

theorem holes_shift (k : Nat) (T : Template) : (T.shift k).holes = T.holes.map (· + k) := by
  induction T with
  | nil => rfl
  | cons x T ih =>
    simp only [holes, shift] at ih
    cases x <;> simp [holes, shift, List.filterMap_cons, Piece.shift, Piece.hole?, ih]

/-- Holes numbered after those of `T` keep the order. -/
theorem Ordered.append_shift {T U : Template} {m n : Nat} (hT : T.Ordered m) (hU : U.Ordered n) :
    Ordered (T ++ U.shift m) (m + n) := by
  rw [Ordered, holes_append, holes_shift]
  refine ⟨List.pairwise_append.2 ⟨hT.1, List.pairwise_map.2 ?_, ?_⟩, ?_⟩
  · exact hU.1.imp (by omega)
  · intro i hi j hj
    obtain ⟨j, -, rfl⟩ := List.mem_map.1 hj
    have := hT.2 i hi
    omega
  · intro i hi
    rcases List.mem_append.1 hi with hi | hi
    · have := hT.2 i hi
      omega
    · obtain ⟨j, hj, rfl⟩ := List.mem_map.1 hi
      have := hU.2 j hj
      omega

end Template

/-! ## What a computation writes and binds -/

/-- What a computation writes, or the error it ends with, and what it binds, wherever it starts. -/
structure Sketch where
  outcome : Except Error Template
  values : List Value
  ordered : ∀ {T : Template}, outcome = .ok T → T.Ordered values.length

/-- The sketch carried out from a table. -/
def Sketch.exec (s : Sketch) (p : Parameters) : Except Error String × Parameters :=
  (s.outcome.map (Template.fill p.tag p.size), p.extend s.values)

/-- A computation that does the same wherever it starts. -/
def Relocatable (m : Binder String) : Prop := ∃ s : Sketch, ∀ p, m.exec p = s.exec p

namespace Relocatable

variable {m n : Binder String}

theorem pure (s : String) : Relocatable (Pure.pure s) := by
  refine ⟨⟨.ok [.text s], [], ?_⟩, fun p => ?_⟩
  · rintro _ ⟨⟩
    simp [Template.Ordered, Template.holes, List.filterMap_cons, Piece.hole?]
  · simp [Sketch.exec, Except.map, Template.fill, Piece.fill]

theorem throw (err : Error) : Relocatable (throw err) :=
  ⟨⟨.error err, [], nofun⟩, fun p => by simp [Sketch.exec, Except.map]⟩

theorem refuse (cause : Unsupported) : Relocatable (.refuse cause) := throw _

theorem bindValue (v : Value) : Relocatable (.bindValue v) := by
  refine ⟨⟨.ok [.hole 0], [v], ?_⟩, fun p => ?_⟩
  · rintro _ ⟨⟩
    simp [Template.Ordered, Template.holes, Piece.hole?]
  · simp [Sketch.exec, Except.map, Template.fill, Piece.fill, Parameters.nextKey]

/-- Two computations one after the other. The text of the first stays in front of the second's, or
is dropped. -/
theorem seq (hm : Relocatable m) (hn : Relocatable n) (keep : Bool) :
    Relocatable (do
      let a ← m
      let b ← n
      return (if keep then a else "") ++ b) := by
  obtain ⟨⟨out, vs, hvs⟩, hm⟩ := hm
  obtain ⟨⟨out', ws, hws⟩, hn⟩ := hn
  cases out with
  | error err =>
    refine ⟨⟨.error err, vs, nofun⟩, fun p => ?_⟩
    rw [Binder.exec_bind_error (by rw [hm]; rfl)]
    rfl
  | ok T =>
    cases out' with
    | error err =>
      refine ⟨⟨.error err, vs ++ ws, nofun⟩, fun p => ?_⟩
      rw [Binder.exec_bind_ok (by rw [hm]; rfl), Binder.exec_bind_error (by rw [hn]; rfl)]
      simp [Sketch.exec, Except.map]
    | ok U =>
      have hT : Template.Ordered (if keep then T else []) vs.length := by
        cases keep with
        | true => exact hvs rfl
        | false => simp [Template.Ordered, Template.holes]
      refine ⟨⟨.ok ((if keep then T else []) ++ U.shift vs.length), vs ++ ws, ?_⟩, fun p => ?_⟩
      · rintro _ ⟨⟩
        rw [List.length_append]
        exact hT.append_shift (hws rfl)
      · rw [Binder.exec_bind_ok (by rw [hm]; rfl), Binder.exec_bind_ok (by rw [hn]; rfl)]
        cases keep <;> simp [Sketch.exec, Except.map]

theorem append (hm : Relocatable m) (hn : Relocatable n) :
    Relocatable (do
      let a ← m
      let b ← n
      return a ++ b) := by
  simpa using hm.seq hn true

theorem andThen (hm : Relocatable m) (hn : Relocatable n) : Relocatable (m >>= fun _ => n) := by
  simpa using hm.seq hn false

end Relocatable

/-! ## Frames -/

/-- A text with one gap. -/
def Affixes (f : String → String) : Prop := ∃ before after, ∀ x, f x = before ++ x ++ after

def Infixes (f : String → String → String) : Prop :=
  ∃ before between after, ∀ x y, f x y = before ++ x ++ between ++ y ++ after

namespace Relocatable

variable {m n : Binder String}

theorem affix {f : String → String} (hf : Affixes f) (hm : Relocatable m) :
    Relocatable (do return f (← m)) := by
  obtain ⟨before, after, hf⟩ := hf
  simpa [hf, String.append_assoc] using (pure before).append (hm.append (pure after))

theorem fix {f : String → String → String} (hf : Infixes f) (hm : Relocatable m)
    (hn : Relocatable n) :
    Relocatable (do
      let a ← m
      let b ← n
      return f a b) := by
  obtain ⟨before, between, after, hf⟩ := hf
  simpa [hf, String.append_assoc] using
    (pure before).append (hm.append ((pure between).append (hn.append (pure after))))

theorem commaList {α : Type} {f : α → Binder String} (suffix : String) :
    ∀ (items : List α), (∀ x ∈ items, Relocatable (f x)) →
      Relocatable (do return SqlCompose.commaList ((← items.mapM f).map (· ++ suffix)))
  | [], _ => by simpa [SqlCompose.commaList] using pure ""
  | [x], h => by
    have hx := (h x (by simp)).append (pure suffix)
    simpa [SqlCompose.commaList] using hx
  | x :: y :: rest, h => by
    have hx := h x (by simp)
    have hrest := commaList suffix (y :: rest) fun z hz => h z (by simp [hz])
    have := hx.append ((pure (suffix ++ ", ")).append hrest)
    -- The rest is not empty, so a comma follows the first text.
    simpa [SqlCompose.commaList, joinWith_cons_cons, String.append_assoc] using this

theorem commaList_affix {α : Type} {f : α → Binder String} {g : String → String} (hg : Affixes g)
    {items : List α} (h : ∀ x ∈ items, Relocatable (f x)) :
    Relocatable (do return g (SqlCompose.commaList (← items.mapM f))) := by
  simpa using (commaList "" items h).affix hg

end Relocatable

end SqlCompose
