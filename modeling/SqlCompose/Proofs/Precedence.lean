/-
Conditions as SQL reads them: AND binds tighter than OR, both from left to right, and
parentheses group.

`Reads` is that grammar over tokens, where an operand is one token, whatever its text.
A `Tree` is written with parentheses around every operand that is not a leaf
(`Tree.tokens`), and such tokens have one reading, which is the tree (`reads_tokens_iff`).
That there is no other is shown by `Reading.awaiting`, which reads tokens from left to
right and finds every tree the grammar allows.
-/
import SqlCompose.Query.Clauses

namespace SqlCompose

/-! ## Trees and tokens -/

/-- A condition put together from operands by AND and OR. -/
inductive Tree (α : Type) where
  | leaf (a : α)
  | node (connective : Connective) (l r : Tree α)
  deriving DecidableEq, Repr

inductive Token (α : Type) where
  | operand (a : α)
  | connective (c : Connective)
  | opening
  | closing
  deriving DecidableEq, Repr

namespace Tree

variable {α : Type}

def isLeaf : Tree α → Bool
  | leaf _ => true
  | node _ _ _ => false

/-- The tokens of an operand: in parentheses unless it is a leaf. -/
def enclosed (t : Tree α) (tokens : List (Token α)) : List (Token α) :=
  if t.isLeaf then tokens else .opening :: tokens ++ [.closing]

/-- The tokens that a tree is written with. -/
def tokens : Tree α → List (Token α)
  | leaf a => [.operand a]
  | node c l r => enclosed l (tokens l) ++ .connective c :: enclosed r (tokens r)

/-- Operands joined from left to right; the connective of the first is not looked at. -/
def chain : List (Connective × α) → Option (Tree α)
  | [] => none
  | (_, a) :: rest => some (rest.foldl (fun t x => node x.1 t (leaf x.2)) (leaf a))

/-- The whole of a condition AND one more operand, if there is one. -/
def conjoin : Option (Tree α) → Option α → Option (Tree α)
  | t, none => t
  | none, some a => some (leaf a)
  | some t, some a => some (node .and t (leaf a))

end Tree

/-- A connective stands between spaces. -/
def Token.text : Token String → String
  | operand s => s
  | connective c => " " ++ c.keyword ++ " "
  | opening => "("
  | closing => ")"

def spell : List (Token String) → String
  | [] => ""
  | x :: rest => x.text ++ spell rest

@[simp] theorem spell_append (xs ys : List (Token String)) :
    spell (xs ++ ys) = spell xs ++ spell ys := by
  induction xs with
  | nil => simp [spell]
  | cons x xs ih => simp [spell, ih, String.append_assoc]

def Tree.text (t : Tree String) : String := spell t.tokens

@[simp] theorem Tree.text_leaf (a : String) : (leaf a).text = a := by
  simp [text, tokens, spell, Token.text]

theorem Tree.spell_enclosed (t : Tree String) :
    spell (t.enclosed t.tokens) = if t.isLeaf then t.text else "(" ++ t.text ++ ")" := by
  unfold enclosed
  split <;> simp [text, spell, Token.text, String.append_assoc]

theorem Tree.text_node_leaf (c : Connective) (l : Tree String) (a : String) :
    (node c l (leaf a)).text =
      (if l.isLeaf then l.text else "(" ++ l.text ++ ")") ++ " " ++ c.keyword ++ " " ++ a := by
  rw [text, tokens, spell_append, spell_enclosed]
  simp [enclosed, isLeaf, tokens, spell, Token.text, String.append_assoc]

/-! ## The grammar -/

/-- How tightly a condition binds. -/
inductive Grade where
  | operand
  | conjunction
  | disjunction
  deriving DecidableEq, Repr

/-- The tokens of that grade read as the tree. -/
inductive Reads {α : Type} : Grade → List (Token α) → Tree α → Prop
  | leaf (a : α) : Reads .operand [.operand a] (.leaf a)
  | group {ts : List (Token α)} {t : Tree α} (h : Reads .disjunction ts t) :
    Reads .operand (.opening :: ts ++ [.closing]) t
  | conjunct {ts : List (Token α)} {t : Tree α} (h : Reads .operand ts t) :
    Reads .conjunction ts t
  | and {ts us : List (Token α)} {l r : Tree α} (hl : Reads .conjunction ts l)
    (hr : Reads .operand us r) :
    Reads .conjunction (ts ++ .connective .and :: us) (.node .and l r)
  | disjunct {ts : List (Token α)} {t : Tree α} (h : Reads .conjunction ts t) :
    Reads .disjunction ts t
  | or {ts us : List (Token α)} {l r : Tree α} (hl : Reads .disjunction ts l)
    (hr : Reads .conjunction us r) :
    Reads .disjunction (ts ++ .connective .or :: us) (.node .or l r)

section

variable {α : Type}

theorem reads_enclosed {t : Tree α} (h : Reads .disjunction t.tokens t) :
    Reads .operand (t.enclosed t.tokens) t := by
  cases t with
  | leaf a => exact .leaf a
  | node c l r => exact .group h

theorem reads_tokens (t : Tree α) : Reads .disjunction t.tokens t := by
  induction t with
  | leaf a => exact .disjunct (.conjunct (.leaf a))
  | node c l r ihl ihr =>
    have hl := reads_enclosed ihl
    have hr := reads_enclosed ihr
    cases c with
    | and => exact .disjunct (.and (.conjunct hl) hr)
    | or => exact .or (.disjunct (.conjunct hl)) (.conjunct hr)

/-! ## Reading from left to right -/

namespace Reading

/-- What is joined already, and one more on the right. -/
def joined (c : Connective) : Option (Tree α) → Tree α → Tree α
  | none, t => t
  | some l, t => .node c l t

/-- What stands to the left of an operand inside the same parentheses: the disjuncts that are
complete, and the conjuncts of the one that is not. -/
structure Left (α : Type) where
  disjuncts : Option (Tree α) := none
  conjuncts : Option (Tree α) := none

mutual

/-- An operand has to follow. The parentheses around it are given by what is left of them. -/
def awaiting (outer : List (Left α)) (left : Left α) : List (Token α) → Option (Tree α)
  | .operand a :: rest => after outer left.disjuncts (joined .and left.conjuncts (.leaf a)) rest
  | .opening :: rest => awaiting (left :: outer) {} rest
  | _ => none

/-- A conjunction is complete unless AND follows. -/
def after (outer : List (Left α)) (disjuncts : Option (Tree α)) (t : Tree α) :
    List (Token α) → Option (Tree α)
  | [] => if outer.isEmpty then some (joined .or disjuncts t) else none
  | .connective .and :: rest => awaiting outer ⟨disjuncts, some t⟩ rest
  | .connective .or :: rest => awaiting outer ⟨some (joined .or disjuncts t), none⟩ rest
  | .closing :: rest =>
    match outer with
    | [] => none
    | left :: outer =>
      after outer left.disjuncts (joined .and left.conjuncts (joined .or disjuncts t)) rest
  | _ => none

end

/-- What the reader makes of tokens that the grammar reads as `t`, whatever follows them. -/
def Finds : Grade → List (Token α) → Tree α → Prop
  | .operand, ts, t => ∀ outer left rest,
    awaiting outer left (ts ++ rest) = after outer left.disjuncts (joined .and left.conjuncts t) rest
  | .conjunction, ts, t => ∀ outer disjuncts rest,
    awaiting outer ⟨disjuncts, none⟩ (ts ++ rest) = after outer disjuncts t rest
  | .disjunction, ts, t => ∃ disjuncts u, joined .or disjuncts u = t ∧
    ∀ outer rest, awaiting outer {} (ts ++ rest) = after outer disjuncts u rest

theorem finds_of_reads {g : Grade} {ts : List (Token α)} {t : Tree α} (h : Reads g ts t) :
    Finds g ts t := by
  induction h with
  | leaf a =>
    intro outer left rest
    rw [List.singleton_append, awaiting]
  | @group ts t _ ih =>
    obtain ⟨disjuncts, u, rfl, hts⟩ := ih
    intro outer left rest
    rw [List.cons_append, List.cons_append, awaiting, List.append_assoc, hts, List.singleton_append,
      after]
  | conjunct _ ih =>
    intro outer disjuncts rest
    rw [ih, joined]
  | and _ _ ihl ihr =>
    intro outer disjuncts rest
    rw [List.append_assoc, ihl, List.cons_append, after, ihr, joined]
  | @disjunct ts t _ ih => exact ⟨none, t, rfl, fun outer rest => ih outer none rest⟩
  | @or ts us l r _ _ ihl ihr =>
    obtain ⟨disjuncts, u, rfl, hts⟩ := ihl
    refine ⟨some (joined .or disjuncts u), r, rfl, fun outer rest => ?_⟩
    rw [List.append_assoc, hts, List.cons_append, after, ihr]

end Reading

/-- Tokens have at most one reading. -/
theorem Reads.unique {ts : List (Token α)} {t t' : Tree α} (h : Reads .disjunction ts t)
    (h' : Reads .disjunction ts t') : t = t' := by
  obtain ⟨disjuncts, u, rfl, hts⟩ := Reading.finds_of_reads h
  obtain ⟨disjuncts', u', rfl, hts'⟩ := Reading.finds_of_reads h'
  have heq := (hts [] []).symm.trans (hts' [] [])
  simpa [Reading.after] using heq

/-- A tree is what its tokens read as, and nothing else is. -/
theorem reads_tokens_iff (t t' : Tree α) : Reads .disjunction t.tokens t' ↔ t' = t :=
  ⟨fun h => h.unique (reads_tokens t), fun h => h ▸ reads_tokens t⟩

end

end SqlCompose
