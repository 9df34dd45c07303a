/-
Strings, keys, comments and blanks. Control characters other than the tab are
refused everywhere; line breaks are a line feed with or without a carriage return
before it.
-/
import SqlCompose.Text.Hex
import SqlCompose.Toml

namespace SqlCompose.Toml

def isTextChar (c : Char) : Bool := c == '\t' || (0x20 ≤ c.toNat && c.toNat != 0x7F)

def isBlankSpace (c : Char) : Bool := c == ' ' || c == '\t'

def skipBlanks (cs : List Char) : List Char := cs.dropWhile isBlankSpace

def lineBreak? : List Char → Option (List Char)
  | '\n' :: rest => some rest
  | '\r' :: '\n' :: rest => some rest
  | _ => none

/-- Skips blanks, line breaks and comments; the flag says that a comment is open. -/
def skipLines : Bool → List Char → Option (List Char)
  | _, [] => some []
  | _, '\n' :: rest => skipLines false rest
  | _, '\r' :: '\n' :: rest => skipLines false rest
  | true, c :: rest => if isTextChar c then skipLines true rest else none
  | false, c :: rest =>
    if isBlankSpace c then skipLines false rest
    else if c = '#' then skipLines true rest
    else some (c :: rest)

def skipComment : List Char → Option (List Char)
  | '#' :: rest =>
    let after := rest.dropWhile isTextChar
    if after.isEmpty ∨ (lineBreak? after).isSome then some after else none
  | cs => some cs

/-- The end of a line: blanks, a comment, and a line break or the end of the text. -/
def endLine (cs : List Char) : Option (List Char) := do
  let cs ← skipComment (skipBlanks cs)
  if cs.isEmpty then some [] else lineBreak? cs

/-! ## Strings -/

def codePoint? (digits : List Char) : Option Char :=
  (hexNumber? digits).bind fun n =>
    if n < 0xD800 ∨ (0xE000 ≤ n ∧ n < 0x110000) then some (Char.ofNat n) else none

def escape? (c : Char) : Option Char :=
  if c = '"' ∨ c = '\\' then some c
  else if c = 'b' then some '\x08'
  else if c = 't' then some '\t'
  else if c = 'n' then some '\n'
  else if c = 'f' then some '\x0c'
  else if c = 'r' then some '\r'
  else none

/-- A string that is read: its characters in reverse, and the rest of the text. -/
def finish (read rest : List Char) : Option (String × List Char) :=
  some (String.ofList read.reverse, rest)

def basicString (read : List Char) : List Char → Option (String × List Char)
  | [] => none
  | '"' :: rest => finish read rest
  | '\\' :: 'u' :: a :: b :: c :: d :: rest =>
    (codePoint? [a, b, c, d]).bind fun x => basicString (x :: read) rest
  | '\\' :: 'U' :: a :: b :: c :: d :: e :: f :: g :: h :: rest =>
    (codePoint? [a, b, c, d, e, f, g, h]).bind fun x => basicString (x :: read) rest
  | '\\' :: c :: rest => (escape? c).bind fun x => basicString (x :: read) rest
  | c :: rest => if isTextChar c ∧ c ≠ '\\' then basicString (c :: read) rest else none

def literalString (read : List Char) : List Char → Option (String × List Char)
  | [] => none
  | '\x27' :: rest => finish read rest
  | c :: rest => if isTextChar c then literalString (c :: read) rest else none

/-- Up to two quotes right after three closing ones belong to the string. -/
def closeLong (q : Char) (read rest : List Char) : Option (String × List Char) :=
  let extra := (rest.take 2).takeWhile (· == q)
  finish (extra ++ read) (rest.drop extra.length)

/-- What a long string is doing: reading, looking for the end of a line after a backslash, or
skipping the blanks and line breaks that follow. -/
inductive LongMode where
  | reading
  | lineEnd
  | skipping
  deriving DecidableEq

/-- A string of several lines with escapes, after its three opening quotes. A backslash at the end
of a line takes the blanks and line breaks after it away. -/
def longBasic (mode : LongMode) (read : List Char) : List Char → Option (String × List Char)
  | [] => none
  | '\n' :: rest =>
    if mode = .reading then longBasic .reading ('\n' :: read) rest else longBasic .skipping read rest
  | '\r' :: '\n' :: rest =>
    if mode = .reading then longBasic .reading ('\n' :: read) rest else longBasic .skipping read rest
  | '"' :: '"' :: '"' :: rest => if mode = .lineEnd then none else closeLong '"' read rest
  | '\\' :: 'u' :: a :: b :: c :: d :: rest =>
    if mode = .lineEnd then none
    else (codePoint? [a, b, c, d]).bind fun x => longBasic .reading (x :: read) rest
  | '\\' :: 'U' :: a :: b :: c :: d :: e :: f :: g :: h :: rest =>
    if mode = .lineEnd then none
    else (codePoint? [a, b, c, d, e, f, g, h]).bind fun x => longBasic .reading (x :: read) rest
  | '\\' :: c :: rest =>
    if mode = .lineEnd then none
    else if isBlankSpace c then longBasic .lineEnd read rest
    else if c = '\n' then longBasic .skipping read rest
    else if c = '\r' ∧ rest.head? = some '\n' then longBasic .lineEnd read rest
    else (escape? c).bind fun x => longBasic .reading (x :: read) rest
  | c :: rest =>
    if isBlankSpace c ∧ mode ≠ .reading then longBasic mode read rest
    else if mode = .lineEnd ∨ c = '\\' then none
    else if isTextChar c then longBasic .reading (c :: read) rest
    else none

def longLiteral (read : List Char) : List Char → Option (String × List Char)
  | [] => none
  | '\n' :: rest => longLiteral ('\n' :: read) rest
  | '\r' :: '\n' :: rest => longLiteral ('\n' :: read) rest
  | '\x27' :: '\x27' :: '\x27' :: rest => closeLong '\x27' read rest
  | c :: rest => if isTextChar c then longLiteral (c :: read) rest else none

/-- Drops a line break right after the opening quotes of a long string. -/
def dropFirstBreak (cs : List Char) : List Char := (lineBreak? cs).getD cs

def string? : List Char → Option (String × List Char)
  | '"' :: '"' :: '"' :: rest => longBasic .reading [] (dropFirstBreak rest)
  | '"' :: rest => basicString [] rest
  | '\x27' :: '\x27' :: '\x27' :: rest => longLiteral [] (dropFirstBreak rest)
  | '\x27' :: rest => literalString [] rest
  | _ => none

/-! ## Keys -/

def isBareKeyChar (c : Char) : Bool := c.isAlphanum || c == '-' || c == '_'

def keyPart? : List Char → Option (String × List Char)
  | '"' :: rest => basicString [] rest
  | '\x27' :: rest => literalString [] rest
  | cs =>
    let part := cs.takeWhile isBareKeyChar
    if part.isEmpty then none else some (String.ofList part, cs.drop part.length)

/-- Parts of a key with points between them; blanks around the points and after the key are
skipped. `fuel` bounds the number of parts. -/
def keyParts? : Nat → List Char → Option (List String × List Char)
  | 0, _ => none
  | fuel + 1, cs => do
    let (part, rest) ← keyPart? (skipBlanks cs)
    match skipBlanks rest with
    | '.' :: more =>
      let (parts, rest) ← keyParts? fuel more
      return (part :: parts, rest)
    | rest => return ([part], rest)

/-- The most parts a key may have, and the deepest nesting of values. -/
def nestingLimit : Nat := 79

/-- A key: the tables on the way and the name in the last of them. -/
def key? (cs : List Char) : Option ((List String × String) × List Char) := do
  let (parts, rest) ← keyParts? nestingLimit cs
  let name ← parts.getLast?
  return ((parts.dropLast, name), rest)

end SqlCompose.Toml
