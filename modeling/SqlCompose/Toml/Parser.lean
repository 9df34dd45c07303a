/-
Reading a TOML document: values, then lines.

The functions for values carry a bound on the number of steps, taken from the
length of the text, and the depth that is left for nested values.
-/
import SqlCompose.Toml.Scalar
import SqlCompose.Toml.Text

namespace SqlCompose.Toml

mutual

def value? : Nat → Nat → List Char → Option (Toml × List Char)
  | 0, _, _ => none
  | fuel + 1, depth, cs =>
    match cs with
    | [] => none
    | '[' :: rest =>
      if depth = 0 then none
      else do
        let (items, rest) ← items? fuel (depth - 1) (← skipLines false rest)
        return (array items, rest)
    | '\x7b' :: rest =>
      if depth = 0 then none
      else
        match skipBlanks rest with
        | '\x7d' :: rest => some (table .inline [], rest)
        | rest => do
          let (entries, rest) ← pairs? fuel (depth - 1) [] rest
          return (table .inline entries, rest)
    | c :: _ =>
      if c = '"' ∨ c = '\x27' then (string? cs).map fun (s, rest) => (string s, rest)
      else
        let (word, rest) := takeWord cs
        (scalar? word).map (·, rest)

def items? : Nat → Nat → List Char → Option (List Toml × List Char)
  | 0, _, _ => none
  | fuel + 1, depth, cs =>
    match cs with
    | ']' :: rest => some ([], rest)
    | _ => do
      let (v, rest) ← value? fuel depth cs
      match ← skipLines false rest with
      | ']' :: rest => return ([v], rest)
      | ',' :: rest => do
        let (items, rest) ← items? fuel depth (← skipLines false rest)
        return (v :: items, rest)
      | _ => none

/-- The pairs of an inline table up to its closing brace, put in one after the other. -/
def pairs? : Nat → Nat → Entries → List Char → Option (Entries × List Char)
  | 0, _, _, _ => none
  | fuel + 1, depth, entries, cs => do
    let ((path, name), rest) ← key? cs
    match rest with
    | '=' :: rest => do
      let (v, rest) ← value? fuel depth (skipBlanks rest)
      let entries ← insertKey path name v .inline entries
      match skipBlanks rest with
      | '\x7d' :: rest => return (entries, rest)
      | ',' :: rest => pairs? fuel depth entries rest
      | _ => none
    | _ => none

end

structure Reading where
  root : Entries
  here : List String

def header? (element : Bool) (r : Reading) (cs : List Char) : Option (Reading × List Char) := do
  let ((path, name), rest) ← key? cs
  let rest ← match element, rest with
    | false, ']' :: rest => some rest
    | true, ']' :: ']' :: rest => some rest
    | _, _ => none
  let root ← if element then openElement path name r.root else openTable path name r.root
  return (⟨root, path ++ [name]⟩, rest)

def pair? (fuel : Nat) (r : Reading) (cs : List Char) : Option (Reading × List Char) := do
  let ((path, name), rest) ← key? cs
  match rest with
  | '=' :: rest => do
    let (v, rest) ← value? fuel nestingLimit (skipBlanks rest)
    return ({ r with root := ← insertAt r.here path name v r.root }, rest)
  | _ => none

def lines? : Nat → Reading → List Char → Option Entries
  | 0, _, _ => none
  | fuel + 1, r, cs => do
    match ← skipLines false cs with
    | [] => return r.root
    | cs =>
      let (r, rest) ← match cs with
        | '[' :: '[' :: rest => header? true r rest
        | '[' :: rest => header? false r rest
        | _ => pair? fuel r cs
      lines? fuel r (← endLine rest)

/-- Reads a document; a byte order mark in front is passed over. -/
def parse? (text : String) : Option Entries :=
  let cs := match text.toList with
    | '\ufeff' :: rest => rest
    | cs => cs
  lines? (cs.length + 1) ⟨[], []⟩ cs

end SqlCompose.Toml
