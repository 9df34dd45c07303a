/-
Reading values from their serialized form. Decimals may also be numbers, and
containers may be nested 127 deep.
-/
import SqlCompose.Json.Parser
import SqlCompose.Json.Reader
import SqlCompose.Time.Parser
import SqlCompose.Value.Json

namespace SqlCompose.Value

/-- A decimal from a number: an integer as it is, any other by the text of its double. -/
def decimalOfNumeral? (n : Numeral) : Option Decimal :=
  match n.int? with
  | some i => Decimal.ofParts? (decide (i < 0)) i.natAbs 0
  | none => n.float?.bind fun x => Decimal.parsePlain? (plainFloat.render x).toList

def ofPlain? (tag : String) (j : Json) : Option Value :=
  match tag, j with
  | "Null", .null => some null
  | "Bool", _ => j.asBool?.map bool
  | "Int", _ => j.asInt64?.map int
  | "Float", .number n => n.float?.map float
  | "Decimal", .number n => (decimalOfNumeral? n).map decimal
  | "Decimal", _ => (j.asString?.bind Decimal.parse?).map decimal
  | "String", _ => j.asString?.map string
  | "DateTime", _ => (j.asString?.bind DateTime.parse?).map dateTime
  | "Guid", _ => (j.asString?.bind Guid.parse?).map guid
  | "Sql", _ => j.asString?.map sql
  | _, _ => none

mutual

def ofJson? : Json → Option Value
  | .string s => if s = some "Null" then some null else none
  | .object [(some tag, .array items)] =>
    match tag with
    | "Binary" => (items.mapM Json.asByte?).map binary
    | "List" => (ofItems? items).map list
    | "Tuple" => (ofItems? items).map tuple
    | "Record" => (ofFields? items).map record
    | _ => none
  | .object [(some tag, j)] => ofPlain? tag j
  | _ => none

def ofItems? : List Json → Option (List Value)
  | [] => some []
  | j :: rest => do
    let v ← ofJson? j
    let rest ← ofItems? rest
    return v :: rest

def ofFields? : List Json → Option (List (String × Value))
  | [] => some []
  | .array [.string (some name), j] :: rest => do
    let v ← ofJson? j
    let rest ← ofFields? rest
    return (name, v) :: rest
  | _ :: _ => none

end

def parse? (text : String) : Option Value := do
  let j ← Json.parse? text
  if j.depth ≤ 127 then ofJson? j else none

end SqlCompose.Value
