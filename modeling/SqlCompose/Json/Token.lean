/-
The tokens of a JSON text. The lexer goes over the characters once, with a mode
that says what it is inside of. A word is whatever stands between blanks, quotes
and punctuation; it has to be a constant or a number.
-/
import SqlCompose.Json
import SqlCompose.Number.Decimal.Parser

namespace SqlCompose.Json

inductive Token where
  | openArray
  | closeArray
  | openObject
  | closeObject
  | comma
  | colon
  | string (s : Option String)
  /-- A constant or a number. -/
  | atom (j : Json)

/-- A piece of a string: a character, or a code unit named by an escape. -/
inductive Piece where
  | char (c : Char)
  | unit (n : Nat)

/-- What the lexer is inside of; what it has read of it is kept in reverse. -/
inductive LexMode where
  | between
  | word (read : List Char)
  | text (read : List Piece)
  | escape (read : List Piece)
  | hex (read : List Piece) (digits : List Char)

structure LexState where
  tokens : List Token
  mode : LexMode

def isHighSurrogate (n : Nat) : Bool := 0xD800 ≤ n && n < 0xDC00

def isLowSurrogate (n : Nat) : Bool := 0xDC00 ≤ n && n < 0xE000

/-- The characters of a string; two surrogates make one, and one alone makes none. -/
def decodePieces : List Piece → Option (List Char)
  | [] => some []
  | .char c :: rest => (decodePieces rest).map (c :: ·)
  | .unit n :: rest =>
    if isLowSurrogate n then none
    else if isHighSurrogate n then
      match rest with
      | .unit m :: rest =>
        if isLowSurrogate m then
          (decodePieces rest).map
            (Char.ofNat (0x10000 + (n - 0xD800) * 0x400 + (m - 0xDC00)) :: ·)
        else none
      | _ => none
    else (decodePieces rest).map (Char.ofNat n :: ·)

def decodeText (read : List Piece) : Option String := (decodePieces read.reverse).map String.ofList

def digitList? (cs : List Char) : Option (List Nat) :=
  if cs.isEmpty then none else cs.mapM digitValue?

def exponentPart? : List Char → Option (Bool × List Nat)
  | '-' :: digits => (digitList? digits).map (true, ·)
  | '+' :: digits => (digitList? digits).map (false, ·)
  | digits => (digitList? digits).map (false, ·)

/-- A number: no zeros in front, digits after a point, digits after an exponent mark. -/
def numeral? (cs : List Char) : Option Numeral := do
  let (negative, cs) := match cs with
    | '-' :: rest => (true, rest)
    | _ => (false, cs)
  let wholeChars := cs.takeWhile Char.isDigit
  let whole ← digitList? wholeChars
  if whole.head? = some 0 ∧ 1 < whole.length then none
  else
    let cs := cs.drop wholeChars.length
    let (fraction, cs) ← match cs with
      | '.' :: rest =>
        let chars := rest.takeWhile Char.isDigit
        (digitList? chars).map fun ds => (ds, rest.drop chars.length)
      | _ => some ([], cs)
    match cs with
    | [] => some ⟨negative, whole, fraction, none⟩
    | mark :: rest =>
      if mark = 'e' ∨ mark = 'E' then
        (exponentPart? rest).map fun e => ⟨negative, whole, fraction, some e⟩
      else none

def wordToken? (read : List Char) : Option Token :=
  let cs := read.reverse
  if cs = "null".toList then some (.atom .null)
  else if cs = "true".toList then some (.atom (.bool true))
  else if cs = "false".toList then some (.atom (.bool false))
  else (numeral? cs).map fun n => .atom (.number n)

def punctuation? (c : Char) : Option Token :=
  if c = '[' then some .openArray
  else if c = ']' then some .closeArray
  else if c = '\x7b' then some .openObject
  else if c = '\x7d' then some .closeObject
  else if c = ',' then some .comma
  else if c = ':' then some .colon
  else none

def isSpace (c : Char) : Bool := c == ' ' || c == '\n' || c == '\t' || c == '\r'

def lexBetween (tokens : List Token) (c : Char) : LexState :=
  if isSpace c then ⟨tokens, .between⟩
  else if c = '"' then ⟨tokens, .text []⟩
  else match punctuation? c with
    | some token => ⟨token :: tokens, .between⟩
    | none => ⟨tokens, .word [c]⟩

def endsWord (c : Char) : Bool := isSpace c || c == '"' || (punctuation? c).isSome

def shortEscape? (c : Char) : Option Char :=
  if c = '"' ∨ c = '\\' ∨ c = '/' then some c
  else if c = 'b' then some '\x08'
  else if c = 'f' then some '\x0c'
  else if c = 'n' then some '\n'
  else if c = 'r' then some '\r'
  else if c = 't' then some '\t'
  else none

def lexStep (s : LexState) (c : Char) : Option LexState :=
  match s.mode with
  | .between => some (lexBetween s.tokens c)
  | .word read =>
    if endsWord c then (wordToken? read).map fun token => lexBetween (token :: s.tokens) c
    else some { s with mode := .word (c :: read) }
  | .text read =>
    if c = '"' then some ⟨.string (decodeText read) :: s.tokens, .between⟩
    else if c = '\\' then some { s with mode := .escape read }
    else if c.toNat < 0x20 then none
    else some { s with mode := .text (.char c :: read) }
  | .escape read =>
    if c = 'u' then some { s with mode := .hex read [] }
    else (shortEscape? c).map fun d => { s with mode := .text (.char d :: read) }
  | .hex read digits =>
    let digits := digits ++ [c]
    if digits.length < 4 then
      (hexValue? c).map fun _ => { s with mode := .hex read digits }
    else (hexNumber? digits).map fun n => { s with mode := .text (.unit n :: read) }

def tokens? (text : String) : Option (List Token) := do
  let s ← text.toList.foldlM lexStep ⟨[], .between⟩
  match s.mode with
  | .between => some s.tokens.reverse
  | .word read => (wordToken? read).map fun token => (token :: s.tokens).reverse
  | _ => none

end SqlCompose.Json
