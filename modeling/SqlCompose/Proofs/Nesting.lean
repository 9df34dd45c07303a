/-
How deep in parentheses the parts of a text stand.

An engine reads a text from the left (`Dialect.scan`). What stands between quotes is passed over,
whatever it is; outside of them a parenthesis goes one deeper or one back. Reading fails where a
parenthesis closes that none opened, where a comma or white space stands outside all parentheses,
and where a quote is not closed. So a text that is read from outside to outside is one operand.

A text `Passes` from some depth on if reading goes on after it as if it were not there. Then it does
so within any text, and the lemmas put such texts together: between quotes, between fixed texts and
in comma lists. Fixed texts only need to be counted (`Leads`).
-/
import SqlCompose.Dialect.Names
import SqlCompose.Proofs.Lexing
import SqlCompose.Text.Blank
import SqlCompose.Text.Join

namespace SqlCompose

/-! ## Reading -/

namespace Dialect

/-- The quotes that open and close a literal or a name. Apostrophes and double quotes do so whatever
the engine; some engines have others for names. -/
def quotes (d : Dialect) : List (Char × Char) :=
  (apostrophe, apostrophe) :: ('"', '"') :: d.identifierQuotes?.toList

def closingQuote? (d : Dialect) (c : Char) : Option Char := d.quotes.lookup c

def isQuote (d : Dialect) (c : Char) : Bool := d.quotes.any fun q => c = q.1 ∨ c = q.2

end Dialect

/-- Where a reader stands. -/
inductive Place where
  | outside
  /-- Between quotes. -/
  | within (closing : Char)
  /-- After a closing quote, which is a part of the text if another one follows. -/
  | after (closing : Char)
  deriving DecidableEq, Repr

/-- The depth after a character outside quotes. -/
def nest (depth : Nat) (c : Char) : Option Nat :=
  if c = '(' then some (depth + 1)
  else if depth = 0 ∧ (c = ')' ∨ c = ',' ∨ isBlankChar c = true) then none
  else if c = ')' then some (depth - 1)
  else some depth

namespace Dialect

/-- Reading a character outside quotes. -/
def stepOutside (d : Dialect) (depth : Nat) (c : Char) : Option (Place × Nat) :=
  match d.closingQuote? c with
  | some closing => some (.within closing, depth)
  | none => (nest depth c).map fun depth => (.outside, depth)

def step (d : Dialect) (place : Place) (depth : Nat) (c : Char) : Option (Place × Nat) :=
  match place with
  | .outside => d.stepOutside depth c
  | .within closing => some (if c = closing then .after closing else .within closing, depth)
  | .after closing => if c = closing then some (.within closing, depth) else d.stepOutside depth c

/-- The depth at the end of a text. -/
def scan (d : Dialect) : Place → Nat → List Char → Option Nat
  | .within _, _, [] => none
  | .outside, depth, [] | .after _, depth, [] => some depth
  | place, depth, c :: cs => (d.step place depth c).bind fun x => scan d x.1 x.2 cs

example : sqlServer.scan .outside 0 "([a), ]]] = [b])".toList = some 0 := by decide
example : sqlServer.scan .outside 0 "[a] = [b]".toList = none := by decide
example : generic.scan .outside 0 "(a".toList = some 1 := by decide

end Dialect

/-! ## Texts that leave no trace -/

/-- A text that does not go on with a quote. -/
def Apart (d : Dialect) (rest : List Char) : Prop := ∀ c ∈ rest.head?, d.isQuote c = false

theorem apart_nil (d : Dialect) : Apart d [] := by simp [Apart]

/-- From this depth on, reading goes on after the text as if it were not there. -/
def Passes (d : Dialect) (least : Nat) (text : String) : Prop :=
  ∀ (depth : Nat) (rest : List Char), least ≤ depth → Apart d rest →
    d.scan .outside depth (text.toList ++ rest) = d.scan .outside depth rest

/-- A text without quotes that goes from one depth to another. -/
structure Leads (d : Dialect) (text : String) (start stop : Nat) : Prop where
  unquoted : ∀ c ∈ text.toList, d.isQuote c = false
  nests : text.toList.foldlM nest start = some stop

variable {d : Dialect} {start mid stop : Nat} {cs rest : List Char} {x y before after : String}

theorem Dialect.closingQuote?_eq_none {c : Char} (h : d.isQuote c = false) :
    d.closingQuote? c = none := by
  refine List.lookup_eq_none_iff.2 fun q hq => ?_
  have hc := List.any_eq_false.1 h q hq
  simpa using fun heq : c = q.1 => hc (by simp [heq])

/-! ## Fixed texts -/

/-- More levels around everything change no step. -/
theorem nest_add {c : Char} (h : nest start c = some stop) (k : Nat) :
    nest (start + k) c = some (stop + k) := by
  unfold nest at h ⊢
  split at h
  · next hopen =>
    cases h
    rw [if_pos hopen, Nat.add_right_comm]
  next hopen =>
  split at h
  · cases h
  next hzero =>
  have hzero' : ¬ (start + k = 0 ∧ (c = ')' ∨ c = ',' ∨ isBlankChar c = true)) :=
    fun hk => hzero ⟨by omega, hk.2⟩
  rw [if_neg hopen, if_neg hzero']
  split at h
  · next hclose =>
    cases h
    have hstart : start ≠ 0 := fun h0 => hzero ⟨h0, .inl hclose⟩
    rw [if_pos hclose]
    congr 1
    omega
  · next hclose =>
    cases h
    rw [if_neg hclose]

theorem foldlM_nest_add (h : cs.foldlM nest start = some stop) (k : Nat) :
    cs.foldlM nest (start + k) = some (stop + k) := by
  induction cs generalizing start with
  | nil =>
    cases h
    rfl
  | cons c cs ih =>
    rw [List.foldlM_cons] at h ⊢
    obtain ⟨next, hnext, h⟩ := Option.bind_eq_some_iff.1 h
    rw [nest_add hnext]
    exact ih h

/-- Without quotes only parentheses, commas and white space count. -/
theorem scan_unquoted (h : ∀ c ∈ cs, d.isQuote c = false) (depth : Nat) (rest : List Char) :
    d.scan .outside depth (cs ++ rest) =
      (cs.foldlM nest depth).bind fun depth => d.scan .outside depth rest := by
  induction cs generalizing depth with
  | nil => rfl
  | cons c cs ih =>
    obtain ⟨hc, hcs⟩ := List.forall_mem_cons.1 h
    rw [List.cons_append, Dialect.scan, Dialect.step, Dialect.stepOutside,
      Dialect.closingQuote?_eq_none hc, List.foldlM_cons]
    cases nest depth c with
    | none => rfl
    | some next => exact ih hcs next

def isQuoteMark (c : Char) : Bool :=
  c = apostrophe ∨ c = '"' ∨ c = backtick ∨ c = '[' ∨ c = ']'

theorem Dialect.isQuote_of_not_mark (d : Dialect) {c : Char} (h : isQuoteMark c = false) :
    d.isQuote c = false := by
  simp only [isQuoteMark, decide_eq_false_iff_not, not_or] at h
  obtain ⟨happ, hdouble, hback, hopen, hclose⟩ := h
  cases d <;>
    simp [isQuote, quotes, identifierQuotes?, happ, hdouble, hback, hopen, hclose]

/-- The depth after a character, unless it is a quote. -/
def nestUnquoted (depth : Nat) (c : Char) : Option Nat :=
  if isQuoteMark c then none else nest depth c

theorem foldlM_nestUnquoted (h : cs.foldlM nestUnquoted start = some stop) :
    (∀ c ∈ cs, isQuoteMark c = false) ∧ cs.foldlM nest start = some stop := by
  induction cs generalizing start with
  | nil => exact ⟨nofun, h⟩
  | cons c cs ih =>
    rw [List.foldlM_cons] at h
    obtain ⟨next, hnext, h⟩ := Option.bind_eq_some_iff.1 h
    unfold nestUnquoted at hnext
    split at hnext
    · cases hnext
    · next hc =>
      obtain ⟨hcs, hnest⟩ := ih h
      refine ⟨List.forall_mem_cons.2 ⟨eq_false_of_ne_true hc, hcs⟩, ?_⟩
      rw [List.foldlM_cons, hnext]
      exact hnest

namespace Leads

theorem fixed (h : cs.foldlM nestUnquoted start = some stop) :
    Leads d (String.ofList cs) start stop := by
  obtain ⟨hmarks, hnests⟩ := foldlM_nestUnquoted h
  rw [← String.toList_ofList (l := cs)] at hmarks hnests
  exact ⟨fun c hc => d.isQuote_of_not_mark (hmarks c hc), hnests⟩

theorem append (hx : Leads d x start mid) (hy : Leads d y mid stop) :
    Leads d (x ++ y) start stop where
  unquoted c hc := by
    rw [String.toList_append, List.mem_append] at hc
    exact hc.elim (hx.unquoted c) (hy.unquoted c)
  nests := by
    rw [String.toList_append, List.foldlM_append, hx.nests]
    exact hy.nests

/-- Reading goes on at the other depth, the levels around both counted. -/
theorem scan_eq (h : Leads d x start stop) (k : Nat) (rest : List Char) :
    d.scan .outside (start + k) (x.toList ++ rest) = d.scan .outside (stop + k) rest := by
  rw [scan_unquoted h.unquoted, foldlM_nest_add h.nests]
  rfl

theorem passes (h : Leads d x start start) : Passes d start x := by
  intro depth rest hle _
  obtain ⟨k, rfl⟩ := Nat.exists_eq_add_of_le hle
  exact h.scan_eq k rest

theorem apart {c : Char} (h : Leads d (String.ofList (c :: cs)) start stop) (rest : List Char) :
    Apart d ((String.ofList (c :: cs)).toList ++ rest) := by
  intro a ha
  rw [String.toList_ofList] at ha
  cases ha
  exact h.unquoted c (by simp)

end Leads

/-- A character of a name or number that is not quoted. -/
def Dialect.isPlain (d : Dialect) (c : Char) : Bool :=
  !(d.isQuote c || c = '(' || c = ')' || c = ',' || isBlankChar c)

def Dialect.Plain (d : Dialect) (text : String) : Prop := ∀ c ∈ text.toList, d.isPlain c = true

theorem leads_of_plain (h : d.Plain x) (depth : Nat) : Leads d x depth depth := by
  simp only [Dialect.Plain, Dialect.isPlain, Bool.not_eq_true', Bool.or_eq_false_iff,
    decide_eq_false_iff_not] at h
  refine ⟨fun c hc => (h c hc).1.1.1.1, ?_⟩
  have hnest : ∀ c ∈ x.toList, nest depth c = some depth := by
    intro c hc
    obtain ⟨⟨⟨⟨-, hopen⟩, hclose⟩, hcomma⟩, hblank⟩ := h c hc
    simp [nest, hopen, hclose, hcomma, hblank]
  generalize x.toList = cs at hnest
  induction cs with
  | nil => rfl
  | cons c cs ih =>
    obtain ⟨hc, hcs⟩ := List.forall_mem_cons.1 hnest
    rw [List.foldlM_cons, hc]
    exact ih hcs

theorem Dialect.isPlain_of_isDigit (d : Dialect) {c : Char} (h : c.isDigit = true) :
    d.isPlain c = true := by
  have hne : ∀ x : Char, x.isDigit = false → c ≠ x := by
    rintro x hx rfl
    rw [h] at hx
    cases hx
  have hmark : isQuoteMark c = false := by
    simp [isQuoteMark, hne apostrophe (by decide), hne '"' (by decide), hne backtick (by decide),
      hne '[' (by decide), hne ']' (by decide)]
  have hblank : isBlankChar c = false := by
    simp only [Char.isDigit, Bool.and_eq_true, decide_eq_true_eq, ge_iff_le,
      UInt32.le_iff_toNat_le] at h
    have hlow : 48 ≤ c.toNat := h.1
    have hhigh : c.toNat ≤ 57 := h.2
    simp only [isBlankChar, Bool.or_eq_false_iff, Bool.and_eq_false_iff, decide_eq_false_iff_not,
      beq_eq_false_iff_ne]
    omega
  simp [isPlain, d.isQuote_of_not_mark hmark, hblank, hne '(' (by decide),
    hne ')' (by decide), hne ',' (by decide)]

theorem leads_repr (n depth : Nat) : Leads d n.repr depth depth :=
  leads_of_plain (fun _ hc => d.isPlain_of_isDigit (isDigit_of_mem_repr hc)) depth

/-! ## Texts between quotes -/

theorem scan_after {closing : Char} (h : rest.head? ≠ some closing) (depth : Nat) :
    d.scan (.after closing) depth rest = d.scan .outside depth rest := by
  cases rest with
  | nil => rfl
  | cons c rest =>
    have hc : c ≠ closing := by simpa using h
    simp only [Dialect.scan, Dialect.step, if_neg hc]

/-- Whatever stands between quotes is passed over. -/
theorem scan_within (closing : Char) (s rest : List Char) (depth : Nat) :
    d.scan (.within closing) depth (doubling closing s ++ closing :: rest) =
      d.scan (.after closing) depth rest := by
  induction s with
  | nil => simp [Dialect.scan, Dialect.step]
  | cons c s ih =>
    by_cases hc : c = closing
    · simp [doubling, hc, Dialect.scan, Dialect.step, ih]
    · simp [doubling, hc, Dialect.scan, Dialect.step, ih]

theorem passes_enclose {opening closing : Char} (hopening : d.closingQuote? opening = some closing)
    (hclosing : d.isQuote closing = true) (s : String) :
    Passes d 0 (enclose opening closing s) := by
  intro depth rest _ hrest
  have hend : rest.head? ≠ some closing := by
    intro h
    rw [hrest closing h] at hclosing
    cases hclosing
  rw [toList_enclose, List.cons_append, List.append_assoc, Dialect.scan, Dialect.step,
    Dialect.stepOutside, hopening]
  exact (scan_within closing s.toList rest depth).trans (scan_after hend depth)

/-! ## Putting texts together -/

namespace Passes

theorem fixed (h : cs.foldlM nestUnquoted start = some start) :
    Passes d start (String.ofList cs) := (Leads.fixed h).passes

theorem mono (h : Passes d start x) (hle : start ≤ stop) : Passes d stop x :=
  fun depth rest hdepth => h depth rest (Nat.le_trans hle hdepth)

theorem prepend (hbefore : Leads d before start start) (hx : Passes d start x) :
    Passes d start (before ++ x) := by
  intro depth rest hle hrest
  obtain ⟨k, rfl⟩ := Nat.exists_eq_add_of_le hle
  rw [String.toList_append, List.append_assoc, hbefore.scan_eq, hx _ rest hle hrest]

theorem frame {c : Char} (hbefore : Leads d before start mid) (hx : Passes d mid x)
    (hafter : Leads d (String.ofList (c :: cs)) mid start) :
    Passes d start (before ++ x ++ String.ofList (c :: cs)) := by
  intro depth rest hle _
  obtain ⟨k, rfl⟩ := Nat.exists_eq_add_of_le hle
  rw [String.toList_append, String.toList_append, List.append_assoc, List.append_assoc,
    hbefore.scan_eq, hx (mid + k) _ (Nat.le_add_right mid k) (hafter.apart rest), hafter.scan_eq]

theorem join {c : Char} (hx : Passes d start x)
    (hbetween : Leads d (String.ofList (c :: cs)) start start) (hy : Passes d start y) :
    Passes d start (x ++ String.ofList (c :: cs) ++ y) := by
  intro depth rest hle hrest
  rw [String.toList_append, String.toList_append, List.append_assoc, List.append_assoc,
    hx depth _ hle (hbetween.apart _)]
  obtain ⟨k, rfl⟩ := Nat.exists_eq_add_of_le hle
  rw [hbetween.scan_eq, hy _ rest hle hrest]

theorem frame₂ {b c : Char} {bs : List Char} (hbefore : Leads d before start mid)
    (hx : Passes d mid x) (hbetween : Leads d (String.ofList (b :: bs)) mid mid)
    (hy : Passes d mid y) (hafter : Leads d (String.ofList (c :: cs)) mid start) :
    Passes d start (before ++ x ++ String.ofList (b :: bs) ++ y ++ String.ofList (c :: cs)) := by
  have h := frame hbefore (hx.join hbetween hy) hafter
  rwa [← String.append_assoc, ← String.append_assoc] at h

theorem commaList : ∀ {items : List String}, (∀ x ∈ items, Passes d 1 x) →
    Passes d 1 (SqlCompose.commaList items)
  | [], _ => fixed rfl
  | [x], h => h x List.mem_cons_self
  | x :: y :: rest, h => by
    have hrest := commaList fun z hz => h z (List.mem_cons_of_mem x hz)
    exact (h x List.mem_cons_self).join (.fixed rfl) hrest

end Passes

end SqlCompose
