/-
The serialized form of values: compact JSON, an object with the name of the sort
as its one member, and the bare string `"Null"` for null. A double that JSON has
no number for is `null`.
-/
import SqlCompose.Json
import SqlCompose.Value.Text

namespace SqlCompose

/-- Doubles in serialized values: positional from `10 ^ -5` up to `10 ^ 16` with a digit after the
point, exponents with their sign otherwise. -/
def jsonFloat : FloatLayout where
  positional e := -5 ≤ e && e < 16
  pointZero := true
  tie := .even
  nan := "null"
  infinity := "null"

def jsonNumber (x : Float) : String :=
  match Binary64.ofFloat x with
  | .finite .. => jsonFloat.render x
  | _ => "null"

def jsonArray (items : List String) : String := "[" ++ joinWith "," items ++ "]"

def jsonObject (members : List (String × String)) : String :=
  "\x7b" ++ joinWith "," (members.map fun m => Json.quote m.1 ++ ":" ++ m.2) ++ "\x7d"

namespace Value

def tagged (tag payload : String) : String := jsonObject [(tag, payload)]

mutual

def json : Value → String
  | null => Json.quote "Null"
  | bool b => tagged "Bool" (boolText b)
  | int n => tagged "Int" (int64Text n)
  | float x => tagged "Float" (jsonNumber x)
  | decimal d => tagged "Decimal" (Json.quote d.text)
  | string s => tagged "String" (Json.quote s)
  | dateTime t => tagged "DateTime" (Json.quote t.isoText)
  | guid g => tagged "Guid" (Json.quote g.text)
  | binary bytes => tagged "Binary" (jsonArray (bytes.map fun b => b.toNat.repr))
  | list items => tagged "List" (jsonArray (jsonItems items))
  | tuple items => tagged "Tuple" (jsonArray (jsonItems items))
  | record fields => tagged "Record" (jsonArray (jsonFields fields))
  | sql s => tagged "Sql" (Json.quote s)

def jsonItems : List Value → List String
  | [] => []
  | v :: rest => json v :: jsonItems rest

def jsonFields : List (String × Value) → List String
  | [] => []
  | (name, v) :: rest => jsonArray [Json.quote name, json v] :: jsonFields rest

end

end Value

end SqlCompose
