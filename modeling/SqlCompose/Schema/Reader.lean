/-
Reading fields from their serialized form: an object by names, or an array in the
order of declaration. Names that mean nothing are passed over, names that mean
something may stand once. What is optional may be missing from an object or be
null; an array has it in its place.
-/
import SqlCompose.Json.Parser
import SqlCompose.Json.Reader
import SqlCompose.Schema.Field

namespace SqlCompose

open Json

/-- A type by its name, or as an object with the name and null. -/
def LogicalType.ofJson? : Json → Option LogicalType
  | .string (some name) => ofName? name
  | .object [(some name, .null)] => ofName? name
  | _ => none

def required (members : List (Option String × Json)) (name : String) (read : Json → Option α) :
    Option α :=
  (member? members name).bind read

def optional (members : List (Option String × Json)) (name : String) (read : Json → Option α) :
    Option (Option α) :=
  match member? members name with
  | none => some none
  | some j => orNull read j

def Identity.ofJson? : Json → Option Identity
  | .object ms =>
    if wellNamed ["start", "increment"] ms then do
      return ⟨← required ms "start" asInt64?, ← required ms "increment" asInt64?⟩
    else none
  | .array [start, increment] => do return ⟨← start.asInt64?, ← increment.asInt64?⟩
  | _ => none

def Reference.ofJson? : Json → Option Reference
  | .object ms =>
    if wellNamed ["table", "column", "constraint"] ms then do
      return ⟨← required ms "table" asString?, ← required ms "column" asString?,
        ← optional ms "constraint" asString?⟩
    else none
  | .array [table, column, constraint] => do
    return ⟨← table.asString?, ← column.asString?, ← orNull asString? constraint⟩
  | _ => none

def IndexMark.ofJson? : Json → Option IndexMark
  | .object ms =>
    if wellNamed ["name", "unique"] ms then do
      return ⟨← optional ms "name" asString?, ← required ms "unique" asBool?⟩
    else none
  | .array [name, unique] => do return ⟨← orNull asString? name, ← unique.asBool?⟩
  | _ => none

namespace Field

/-- The names of the parts of a field. -/
def partNames : List String :=
  ["name", "ty", "size", "precision", "nullable", "primary_key", "identity", "reference", "index",
    "ignore"]

def ofParts? (ignore : Bool) : List Json → Option Field
  | [name, ty, size, precision, nullable, primaryKey, identity, reference, index] => do
    return {
      name := ← name.asString?
      ty := ← LogicalType.ofJson? ty
      size := ← size.asUInt32?
      precision := ← precision.asUInt32?
      nullable := ← nullable.asBool?
      primaryKey := ← primaryKey.asBool?
      identity := ← orNull Identity.ofJson? identity
      reference := ← orNull Reference.ofJson? reference
      index := ← orNull IndexMark.ofJson? index
      ignore := ignore }
  | _ => none

/-- The first nine parts of an object; the last three of them may be missing. -/
def partsOf? (ms : List (Option String × Json)) : Option (List Json) := do
  let needed ← (partNames.take 6).mapM (member? ms)
  return needed ++ ((partNames.drop 6).take 3).map fun name => (member? ms name).getD .null

def ofJson? : Json → Option Field
  | .object ms =>
    if wellNamed partNames ms then do
      let ignore ← match member? ms "ignore" with
        | some j => j.asBool?
        | none => some false
      ofParts? ignore (← partsOf? ms)
    else none
  | .array items =>
    match items.drop 9 with
    | [] => ofParts? false items
    | [ignore] => do ofParts? (← ignore.asBool?) (items.take 9)
    | _ => none
  | _ => none

def parse? (text : String) : Option Field := (Json.parse? text).bind ofJson?

end Field

end SqlCompose
