/-
Literals as MySQL reads them.

Between apostrophes two of them stand for one, as everywhere, and a backslash with the character
after it is an escape: `\n` is the end of a line, and where a pair means nothing the backslash is
dropped (`escaped`). Literals are written with their apostrophes doubled and their backslashes as
they are. So a text is read back if each of its backslashes stands before a percent sign or an
underscore, the two characters before which MySQL leaves it in place, and only then
(`readEscaped_doubling_iff`).

A text is literals and single characters (`Scans`). What was written from such tokens has the same
literals again if each of them keeps its backslashes (`scans_write`), and only then
(`keepsBackslashes_of_scans`).
-/
import SqlCompose.Proofs.Statements

namespace SqlCompose.MySql

def backslash : Char := '\\'

/-! ## Literals -/

def escapes : List (Char × Char) :=
  [('0', '\x00'), ('b', '\x08'), ('n', '\n'), ('r', '\r'), ('t', '\t'), ('Z', '\x1a')]

def escaped (c : Char) : List Char :=
  if c = '%' ∨ c = '_' then [backslash, c] else [(escapes.lookup c).getD c]

/-- What stands before the apostrophe that ends a literal, and what is left after it. -/
def readEscaped : List Char → Option (List Char × List Char)
  | [] => none
  | [c] => if c = apostrophe then some ([], []) else none
  | c :: d :: rest =>
    if c = backslash then (readEscaped rest).map fun x => (escaped d ++ x.1, x.2)
    else if c = apostrophe then
      if d = apostrophe then (readEscaped rest).map fun x => (apostrophe :: x.1, x.2)
      else some ([], d :: rest)
    else (readEscaped (d :: rest)).map fun x => (c :: x.1, x.2)

/-- Each backslash stands before a percent sign or an underscore. -/
def KeepsBackslashes : List Char → Prop
  | [] => True
  | c :: cs =>
    (c = backslash → cs.head? = some '%' ∨ cs.head? = some '_') ∧ KeepsBackslashes cs

instance decidableKeepsBackslashes : (cs : List Char) → Decidable (KeepsBackslashes cs)
  | [] => .isTrue trivial
  | _ :: cs =>
    have := decidableKeepsBackslashes cs
    inferInstanceAs (Decidable (_ ∧ _))

section Reading

variable {c d : Char} {cs rest : List Char}

theorem apostrophe_ne_backslash : apostrophe ≠ backslash := by decide

theorem readEscaped_end (hrest : rest.head? ≠ some apostrophe) :
    readEscaped (apostrophe :: rest) = some ([], rest) := by
  cases rest with
  | nil => rfl
  | cons d rest =>
    have hd : d ≠ apostrophe := by simpa using hrest
    rw [readEscaped, if_neg apostrophe_ne_backslash, if_pos rfl, if_neg hd]

theorem readEscaped_apostrophe (cs : List Char) :
    readEscaped (apostrophe :: apostrophe :: cs) =
      (readEscaped cs).map fun x => (apostrophe :: x.1, x.2) := by
  rw [readEscaped, if_neg apostrophe_ne_backslash, if_pos rfl, if_pos rfl]

theorem readEscaped_backslash (d : Char) (cs : List Char) :
    readEscaped (backslash :: d :: cs) =
      (readEscaped cs).map fun x => (escaped d ++ x.1, x.2) := by
  rw [readEscaped, if_pos rfl]

theorem readEscaped_cons (hback : c ≠ backslash) (hquote : c ≠ apostrophe) (cs : List Char) :
    readEscaped (c :: cs) = (readEscaped cs).map fun x => (c :: x.1, x.2) := by
  cases cs with
  | nil => simp [readEscaped, hquote]
  | cons d cs => rw [readEscaped, if_neg hback, if_neg hquote]

/-- What is no backslash is read as itself, doubled or not. -/
theorem readEscaped_doubling_cons (hback : c ≠ backslash) (cs rest : List Char) :
    readEscaped (doubling apostrophe (c :: cs) ++ rest) =
      (readEscaped (doubling apostrophe cs ++ rest)).map fun x => (c :: x.1, x.2) := by
  rw [doubling]
  split
  · next hquote =>
    rw [List.cons_append, List.cons_append, readEscaped_apostrophe, hquote]
  · next hquote => rw [List.cons_append, readEscaped_cons hback hquote]

theorem escaped_of_kept (h : d = '%' ∨ d = '_') : escaped d = [backslash, d] := if_pos h

/-- No other escape is read as more than one character, or as a backslash that was not written. -/
theorem exists_escaped_eq (h : ¬ (d = '%' ∨ d = '_')) :
    ∃ e, escaped d = [e] ∧ (e = backslash → d = backslash) := by
  refine ⟨(escapes.lookup d).getD d, if_neg h, fun he => ?_⟩
  cases hlookup : escapes.lookup d with
  | none => rwa [hlookup] at he
  | some e =>
    obtain ⟨before, after, htable, -⟩ := List.lookup_eq_some_iff.1 hlookup
    have hno : ∀ x ∈ escapes, x.2 ≠ backslash := by decide
    rw [hlookup] at he
    exact absurd he (hno (d, e) (by simp [htable]))

/-- Backslashes before a percent sign or an underscore do not hinder reading. -/
theorem readEscaped_doubling (hrest : rest.head? ≠ some apostrophe) :
    ∀ {cs : List Char}, KeepsBackslashes cs →
      readEscaped (doubling apostrophe cs ++ apostrophe :: rest) = some (cs, rest)
  | [], _ => readEscaped_end hrest
  | c :: cs, ⟨hc, hcs⟩ => by
    by_cases hback : c = backslash
    · obtain ⟨d, cs, rfl⟩ : ∃ d cs', cs = d :: cs' :=
        List.exists_cons_of_ne_nil (by rintro rfl; simpa using hc hback)
      have hkept : d = '%' ∨ d = '_' := by simpa using hc hback
      have hquotes : c ≠ apostrophe ∧ d ≠ apostrophe := by
        obtain rfl | rfl := hkept <;> exact ⟨hback ▸ by decide, by decide⟩
      rw [doubling, if_neg hquotes.1, doubling, if_neg hquotes.2, List.cons_append,
        List.cons_append, hback, readEscaped_backslash, readEscaped_doubling hrest hcs.2,
        escaped_of_kept hkept]
      rfl
    · rw [readEscaped_doubling_cons hback, readEscaped_doubling hrest hcs]
      rfl

theorem exists_of_readEscaped_map {o : Option (List Char × List Char)} {a out rest' : List Char}
    (h : (o.map fun x => (a ++ x.1, x.2)) = some (out, rest')) :
    ∃ b, o = some (b, rest') ∧ a ++ b = out := by
  obtain ⟨x, hx, heq⟩ := Option.map_eq_some_iff.1 h
  cases heq
  exact ⟨x.1, hx, rfl⟩

/-- A backslash before an apostrophe is not read as a backslash. -/
theorem readEscaped_backslash_apostrophe_ne (cs out rest' : List Char) :
    readEscaped (backslash :: apostrophe :: cs) ≠ some (backslash :: out, rest') := by
  intro h
  rw [readEscaped_backslash] at h
  obtain ⟨b, -, heq⟩ := exists_of_readEscaped_map h
  have hescaped : escaped apostrophe = [apostrophe] := by decide
  rw [hescaped] at heq
  cases heq

theorem replicate_backslash_append_cons (k : Nat) (cs : List Char) :
    List.replicate k backslash ++ backslash :: cs =
      backslash :: (List.replicate k backslash ++ cs) := by
  rw [← List.cons_append, ← List.replicate_succ, List.replicate_succ', List.append_assoc]
  rfl

theorem eq_zero_of_cons_eq {k : Nat} {a b : List Char} (hback : c ≠ backslash)
    (h : c :: a = List.replicate k backslash ++ b) : k = 0 := by
  cases k with
  | zero => rfl
  | succ k => exact absurd (List.cons.inj h).1 hback

/-- Nothing else is read back. Where backslashes are lost, what is read falls behind what was
written by as many, so the induction is on texts with `k` backslashes ahead. -/
theorem keepsBackslashes_of_readEscaped (hrest : rest.head? ≠ some apostrophe)
    {rest' : List Char} : ∀ {cs : List Char} {k : Nat},
      readEscaped (doubling apostrophe cs ++ apostrophe :: rest) =
        some (List.replicate k backslash ++ cs, rest') →
      k = 0 ∧ KeepsBackslashes cs ∧ rest' = rest
  | [], k, h => by
    rw [doubling_nil, List.nil_append, readEscaped_end hrest] at h
    cases k with
    | zero =>
      cases h
      exact ⟨rfl, trivial, rfl⟩
    | succ k => cases h
  | c :: cs, k, h => by
    by_cases hback : c = backslash
    · have hquote : c ≠ apostrophe := hback ▸ apostrophe_ne_backslash.symm
      rw [doubling, if_neg hquote, hback, List.cons_append, replicate_backslash_append_cons] at h
      cases cs with
      | nil => exact (readEscaped_backslash_apostrophe_ne _ _ _ h).elim
      | cons d cs =>
        rw [doubling] at h
        split at h
        · exact (readEscaped_backslash_apostrophe_ne _ _ _ h).elim
        rw [List.cons_append, readEscaped_backslash] at h
        obtain ⟨b, hread, heq⟩ := exists_of_readEscaped_map h
        by_cases hkept : d = '%' ∨ d = '_'
        · have hd : d ≠ backslash := by obtain rfl | rfl := hkept <;> decide
          rw [escaped_of_kept hkept, List.cons_append, List.singleton_append] at heq
          replace heq := (List.cons.inj heq).2
          obtain rfl := eq_zero_of_cons_eq hd heq
          have hb : b = cs := (List.cons.inj heq).2
          rw [hb] at hread
          obtain ⟨-, hcs, hend⟩ := keepsBackslashes_of_readEscaped hrest (k := 0) hread
          exact ⟨rfl, ⟨fun _ => by simpa using hkept, fun h => absurd h hd, hcs⟩, hend⟩
        · obtain ⟨e, he, hlost⟩ := exists_escaped_eq hkept
          rw [he, List.singleton_append] at heq
          obtain ⟨rfl, rfl⟩ := List.cons.inj heq
          rw [hlost rfl, replicate_backslash_append_cons, ← List.cons_append,
            ← List.replicate_succ] at hread
          exact absurd (keepsBackslashes_of_readEscaped hrest hread).1 (Nat.succ_ne_zero k)
    · rw [readEscaped_doubling_cons hback] at h
      obtain ⟨b, hread, heq⟩ := exists_of_readEscaped_map (a := [c]) h
      obtain rfl := eq_zero_of_cons_eq hback heq
      have hb : b = cs := (List.cons.inj heq).2
      rw [hb] at hread
      obtain ⟨-, hcs, hend⟩ := keepsBackslashes_of_readEscaped hrest (k := 0) hread
      exact ⟨rfl, ⟨fun h => absurd h hback, hcs⟩, hend⟩
termination_by cs => cs.length

/-- **Which literals are read back.** -/
theorem readEscaped_doubling_iff (hrest : rest.head? ≠ some apostrophe) {rest' : List Char} :
    readEscaped (doubling apostrophe cs ++ apostrophe :: rest) = some (cs, rest') ↔
      KeepsBackslashes cs ∧ rest' = rest := by
  refine ⟨fun h => (keepsBackslashes_of_readEscaped hrest (k := 0) h).2, ?_⟩
  rintro ⟨hcs, rfl⟩
  exact readEscaped_doubling hrest hcs

end Reading

/-- Whether backslashes stay depends on names alone: plain characters are not lost, and no quote is
a character before which a backslash stays. -/
theorem nameWise_keepsBackslashes : NameWise KeepsBackslashes where
  nil := trivial
  cons := by
    intro c cs _ hback
    exact and_iff_right fun h => absurd h hback
  quoted := by
    intro q hq cs rest
    have hplain : q ≠ backslash ∧ q ≠ '%' ∧ q ≠ '_' := by
      obtain rfl | rfl | rfl := hq <;> decide
    induction cs with
    | nil => simp [KeepsBackslashes, hplain.1]
    | cons c cs ih =>
      have hhead : (doubling q cs ++ q :: rest).head? = some (cs.head?.getD q) := by
        rw [List.head?_append, head?_doubling]
        cases cs.head? <;> rfl
      rw [doubling]
      split
      · next hc => simp [KeepsBackslashes, hc, hplain.1, ih]
      · simp only [List.cons_append, KeepsBackslashes, ih, hhead, and_assoc]
        cases cs <;> simp [hplain]

/-! ## Tokens -/

/-- A literal, or a character that stands for itself. -/
inductive Token where
  | literal (s : String)
  | mark (c : Char)
  deriving DecidableEq, Repr

def quotationMarks : List Char := [apostrophe, '"', backtick]

/-- The tokens of a text that quotes nothing but literals. -/
inductive Scans : List Char → List Token → Prop
  | nil : Scans [] []
  | mark {c : Char} {cs : List Char} {ts : List Token} (hc : c ∉ quotationMarks)
      (h : Scans cs ts) : Scans (c :: cs) (.mark c :: ts)
  | literal {cs s rest : List Char} {ts : List Token} (hread : readEscaped cs = some (s, rest))
      (h : Scans rest ts) : Scans (apostrophe :: cs) (.literal (.ofList s) :: ts)

def write : List Token → List Char
  | [] => []
  | .mark c :: ts => c :: write ts
  | .literal s :: ts => (quoteLiteral s).toList ++ write ts

/-- The literals among tokens. -/
def literals : List Token → List String
  | [] => []
  | .mark _ :: ts => literals ts
  | .literal s :: ts => s :: literals ts

def marks (text : String) : List Token := text.toList.map .mark

/-- There are no quotes between the literals, but something between any two of them. -/
def Apart : List Token → Prop
  | [] => True
  | .mark c :: ts => c ∉ quotationMarks ∧ Apart ts
  | .literal _ :: ts => (write ts).head? ≠ some apostrophe ∧ Apart ts

section Tokens

variable {ts ts' : List Token} {cs : List Char}

theorem Scans.unique (h : Scans cs ts) (h' : Scans cs ts') : ts = ts' := by
  induction h generalizing ts' with
  | nil =>
    cases h'
    rfl
  | mark hc h ih =>
    cases h' with
    | mark _ h' => rw [ih h']
    | literal => exact absurd (List.mem_cons_self ..) hc
  | literal hread h ih =>
    cases h' with
    | mark hc _ => exact absurd (List.mem_cons_self ..) hc
    | literal hread' h' =>
      cases hread.symm.trans hread'
      rw [ih h']

@[simp] theorem write_append (ts ts' : List Token) : write (ts ++ ts') = write ts ++ write ts' := by
  induction ts with
  | nil => rfl
  | cons t ts ih =>
    cases t with
    | mark c => rw [List.cons_append, write, write, ih, List.cons_append]
    | literal s => rw [List.cons_append, write, write, ih, List.append_assoc]

@[simp] theorem write_marks (text : String) : write (marks text) = text.toList := by
  rw [marks]
  induction text.toList with
  | nil => rfl
  | cons c cs ih => rw [List.map_cons, write, ih]

@[simp] theorem literals_append (ts ts' : List Token) :
    literals (ts ++ ts') = literals ts ++ literals ts' := by
  induction ts with
  | nil => rfl
  | cons t ts ih =>
    cases t with
    | mark c => exact ih
    | literal s => rw [List.cons_append, literals, literals, ih, List.cons_append]

@[simp] theorem literals_marks (text : String) : literals (marks text) = [] := by
  rw [marks]
  induction text.toList with
  | nil => rfl
  | cons c cs ih => exact ih

/-- Tokens whose literals keep their backslashes are read back. -/
theorem scans_write (hts : Apart ts) (h : ∀ s ∈ literals ts, KeepsBackslashes s.toList) :
    Scans (write ts) ts := by
  induction ts with
  | nil => exact .nil
  | cons t ts ih =>
    cases t with
    | mark c => exact .mark hts.1 (ih hts.2 h)
    | literal s =>
      rw [literals, List.forall_mem_cons] at h
      have hread := readEscaped_doubling hts.1 h.1
      rw [write, quoteLiteral, toList_enclose, List.cons_append, List.append_assoc,
        List.singleton_append]
      have hscan := Scans.literal hread (ih hts.2 h.2)
      rwa [String.ofList_toList] at hscan

/-- A text with the literals it was written from has them unchanged. -/
theorem keepsBackslashes_of_scans (hts : Apart ts) (h : Scans (write ts) ts')
    (hliterals : literals ts' = literals ts) : ∀ s ∈ literals ts, KeepsBackslashes s.toList := by
  induction ts generalizing ts' with
  | nil => exact List.forall_mem_nil _
  | cons t ts ih =>
    cases t with
    | mark c =>
      cases h with
      | mark _ h => exact ih hts.2 h hliterals
      | literal => exact absurd (List.mem_cons_self ..) hts.1
    | literal s =>
      rw [write, quoteLiteral, toList_enclose, List.cons_append, List.append_assoc,
        List.singleton_append] at h
      cases h with
      | mark hc _ => exact absurd (List.mem_cons_self ..) hc
      | literal hread h =>
        obtain ⟨hs, hmore⟩ := List.cons.inj hliterals
        rw [← String.toList_inj, String.toList_ofList] at hs
        rw [hs, readEscaped_doubling_iff hts.1] at hread
        rw [hread.2] at h
        exact List.forall_mem_cons.2 ⟨hread.1, ih hts.2 h hmore⟩

end Tokens

end SqlCompose.MySql
