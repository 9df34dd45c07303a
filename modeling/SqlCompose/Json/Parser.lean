/-
Trees from tokens. The parser goes over the tokens once; what encloses the value
it is reading is kept as a stack, so no depth of nesting is too much for it.
-/
import SqlCompose.Json.Token

namespace SqlCompose.Json

/-- A container with a value missing; what it holds already is kept in reverse. -/
inductive Frame where
  | array (done : List Json)
  | object (done : List (Option String × Json)) (key : Option String)

/-- What the parser waits for. -/
inductive ParseState where
  | value (outer : List Frame)
  /-- After an opening bracket: a value or the end. -/
  | firstItem (outer : List Frame)
  /-- After an opening brace: a name or the end. -/
  | firstKey (outer : List Frame)
  /-- After a comma in an object: a name. -/
  | nextKey (done : List (Option String × Json)) (outer : List Frame)
  | colon (done : List (Option String × Json)) (key : Option String) (outer : List Frame)
  /-- After a value: a comma, the end of its container, or the end of the text. -/
  | after (j : Json) (outer : List Frame)

def startValue (outer : List Frame) : Token → Option ParseState
  | .atom j => some (.after j outer)
  | .string s => some (.after (.string s) outer)
  | .openArray => some (.firstItem outer)
  | .openObject => some (.firstKey outer)
  | _ => none

def afterValue (j : Json) : List Frame → Token → Option ParseState
  | .array done :: outer, .comma => some (.value (.array (j :: done) :: outer))
  | .array done :: outer, .closeArray => some (.after (.array (j :: done).reverse) outer)
  | .object done key :: outer, .comma => some (.nextKey ((key, j) :: done) outer)
  | .object done key :: outer, .closeObject =>
    some (.after (.object ((key, j) :: done).reverse) outer)
  | _, _ => none

def parseStep : ParseState → Token → Option ParseState
  | .value outer, token => startValue outer token
  | .firstItem outer, .closeArray => some (.after (.array []) outer)
  | .firstItem outer, token => startValue (.array [] :: outer) token
  | .firstKey outer, .closeObject => some (.after (.object []) outer)
  | .firstKey outer, .string key => some (.colon [] key outer)
  | .nextKey done outer, .string key => some (.colon done key outer)
  | .colon done key outer, .colon => some (.value (.object done key :: outer))
  | .after j outer, token => afterValue j outer token
  | _, _ => none

def parse? (text : String) : Option Json := do
  match ← (← tokens? text).foldlM parseStep (.value []) with
  | .after j [] => some j
  | _ => none

end SqlCompose.Json
