/-
Names and literals as an engine reads them.

An engine takes a text from the left. Where a name's opening quote stands, the name goes on to
the closing quote, two of which stand for one; any other character stands for itself (`lexeme?`).
A quoted name is one lexeme then, whatever is in it, and nothing of what follows is taken
(`lexeme?_quoteIdentifier`). A name with its table is three (`Target.names_read_back`), so names
that differ never look alike. Literals are read by the same rule, between apostrophes.
-/
import Mathlib.Logic.Function.Basic
import SqlCompose.Dialect.Names
import SqlCompose.Proofs.Lexing

namespace SqlCompose

/-! ## Texts between quotes -/

def readEnclosed (opening closing : Char) (cs : List Char) : Option (String × List Char) := do
  let (s, rest) ← readQuoted closing (← strip? [opening] cs)
  return (.ofList s, rest)

/-- A string literal, and what is left after it. -/
def readLiteral (cs : List Char) : Option (String × List Char) :=
  readEnclosed apostrophe apostrophe cs

theorem readEnclosed_enclose (opening : Char) {closing : Char} {rest : List Char}
    (hrest : rest.head? ≠ some closing) (s : String) :
    readEnclosed opening closing ((enclose opening closing s).toList ++ rest) = some (s, rest) := by
  have hread := readQuoted_doubling hrest s.toList
  simp [readEnclosed, toList_enclose, strip?, hread]

theorem readLiteral_quoteLiteral {rest : List Char} (hrest : rest.head? ≠ some apostrophe)
    (s : String) : readLiteral ((quoteLiteral s).toList ++ rest) = some (s, rest) :=
  readEnclosed_enclose apostrophe hrest s

/-! ## Lexemes -/

/-- A quoted name, or a character that stands for itself. -/
inductive Lexeme where
  | name (s : String)
  | mark (c : Char)
  deriving DecidableEq, Repr

/-- The first lexeme, for an engine with such quotes around names. A name that does not end is
none. -/
def lexeme? (opening closing : Char) : List Char → Option (Lexeme × List Char)
  | [] => none
  | c :: rest =>
    if c = opening then (readEnclosed opening closing (c :: rest)).map fun x => (.name x.1, x.2)
    else some (.mark c, rest)

def lexemes? (opening closing : Char) : Nat → List Char → Option (List Lexeme × List Char)
  | 0, cs => some ([], cs)
  | n + 1, cs => do
    let (first, cs) ← lexeme? opening closing cs
    let (others, cs) ← lexemes? opening closing n cs
    return (first :: others, cs)

/-- The quotes that the manuals of the engines give for names. -/
inductive Dialect.NamesBetween : Dialect → Char → Char → Prop
  | mySql : NamesBetween .mySql '\x60' '\x60'
  | postgres : NamesBetween .postgres '"' '"'
  | sqlServer : NamesBetween .sqlServer '[' ']'
  | oracle : NamesBetween .oracle '"' '"'
  | sqlite : NamesBetween .sqlite '"' '"'

section Names

variable {t : Target} {opening closing : Char}

theorem Dialect.NamesBetween.identifierQuotes? {d : Dialect} (h : d.NamesBetween opening closing) :
    d.identifierQuotes? = some (opening, closing) := by
  cases h <;> rfl

/-- The point between a table and a column is none of the quotes. -/
theorem Dialect.NamesBetween.point_ne {d : Dialect} (h : d.NamesBetween opening closing) :
    '.' ≠ opening ∧ '.' ≠ closing := by
  cases h <;> decide

theorem Target.quoteIdentifier_eq (h : t.dialect.NamesBetween opening closing) (name : String) :
    t.quoteIdentifier name = enclose opening closing name := by
  rw [quoteIdentifier, h.identifierQuotes?]

theorem lexeme?_mark {c : Char} (hc : c ≠ opening) (rest : List Char) :
    lexeme? opening closing (c :: rest) = some (.mark c, rest) := if_neg hc

/-- A quoted name is one lexeme. -/
theorem lexeme?_quoteIdentifier (h : t.dialect.NamesBetween opening closing) (name : String)
    {rest : List Char} (hrest : rest.head? ≠ some closing) :
    lexeme? opening closing ((t.quoteIdentifier name).toList ++ rest) = some (.name name, rest) := by
  have hread := readEnclosed_enclose opening hrest name
  rw [toList_enclose, List.cons_append] at hread
  rw [Target.quoteIdentifier_eq h, toList_enclose, List.cons_append, lexeme?, if_pos rfl, hread]
  rfl

theorem lexemes?_columnRef (h : t.dialect.NamesBetween opening closing) (table column : String)
    {rest : List Char} (hrest : rest.head? ≠ some closing) :
    lexemes? opening closing 3 ((t.columnRef table column).toList ++ rest) =
      some ([.name table, .mark '.', .name column], rest) := by
  obtain ⟨hopening, hclosing⟩ := h.point_ne
  have htext : (t.columnRef table column).toList ++ rest = (t.quoteIdentifier table).toList ++
      '.' :: ((t.quoteIdentifier column).toList ++ rest) := by
    simp [Target.columnRef]
  have hstop : ('.' :: ((t.quoteIdentifier column).toList ++ rest)).head? ≠ some closing := by
    simpa using hclosing
  have htable := lexeme?_quoteIdentifier h table hstop
  have hcolumn := lexeme?_quoteIdentifier h column hrest
  simp [htext, lexemes?, htable, lexeme?_mark hopening, hcolumn]

theorem Target.quoteIdentifier_injective (h : t.dialect.NamesBetween opening closing) :
    Function.Injective t.quoteIdentifier := by
  intro a b hab
  have hend : ([] : List Char).head? ≠ some closing := by simp
  have ha := lexeme?_quoteIdentifier h a hend
  rw [hab, lexeme?_quoteIdentifier h b hend] at ha
  cases ha
  rfl

theorem Target.columnRef_injective (h : t.dialect.NamesBetween opening closing) :
    Function.Injective2 t.columnRef := by
  intro table table' column column' heq
  have hend : ([] : List Char).head? ≠ some closing := by simp
  have hlexemes := lexemes?_columnRef h table column hend
  rw [heq, lexemes?_columnRef h table' column' hend] at hlexemes
  cases hlexemes
  exact ⟨rfl, rfl⟩

end Names

/-- **Names do not leave their quotes.** An engine reads back the table, a point, the column and
then what follows, whatever the names are, so no two names are written alike. Nor do literals. -/
theorem Target.names_read_back {t : Target} {opening closing : Char}
    (h : t.dialect.NamesBetween opening closing) :
    (∀ (table column : String) (rest : List Char), rest.head? ≠ some closing →
      lexemes? opening closing 3 ((t.columnRef table column).toList ++ rest) =
        some ([.name table, .mark '.', .name column], rest)) ∧
    Function.Injective t.quoteIdentifier ∧
    Function.Injective2 t.columnRef ∧
    ∀ (v : String) (rest : List Char), rest.head? ≠ some apostrophe →
      readLiteral ((quoteLiteral v).toList ++ rest) = some (v, rest) :=
  ⟨fun table column _ hrest => lexemes?_columnRef h table column hrest,
    quoteIdentifier_injective h, columnRef_injective h,
    fun v _ hrest => readLiteral_quoteLiteral hrest v⟩

/-- Names made of closing quotes and of what follows a name, and a literal of apostrophes. -/
theorem Target.names_read_back_closing_quotes :
    let t : Target := { dialect := .sqlServer }
    t.dialect.NamesBetween '[' ']' ∧ t.columnRef "]]" "].[" = "[]]]]].[]].[]" ∧
    lexemes? '[' ']' 3 ((t.columnRef "]]" "].[").toList ++ [' ', ']']) =
      some ([.name "]]", .mark '.', .name "].["], [' ', ']']) ∧
    readLiteral ((quoteLiteral "'; --").toList ++ [';']) = some ("'; --", [';']) :=
  have h := names_read_back (t := { dialect := .sqlServer }) .sqlServer
  ⟨.sqlServer, by decide, h.1 _ _ _ (by decide), h.2.2.2 _ _ (by decide)⟩

end SqlCompose
