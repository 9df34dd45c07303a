/-
Reading simple things off JSON trees.
-/
import SqlCompose.Json.Number
import SqlCompose.Number.Word

namespace SqlCompose.Json

def asBool? : Json → Option Bool
  | bool b => some b
  | _ => none

def asString? : Json → Option String
  | string s => s
  | _ => none

def asInt? : Json → Option Int
  | number n => n.int?
  | _ => none

def asInt64? (j : Json) : Option Int64 := j.asInt?.bind int64?

def asUInt32? (j : Json) : Option UInt32 :=
  j.asInt?.bind fun n => if 0 ≤ n ∧ n.toNat < UInt32.size then some (UInt32.ofNat n.toNat) else none

def asByte? (j : Json) : Option UInt8 :=
  j.asInt?.bind fun n => if 0 ≤ n ∧ n.toNat < UInt8.size then some (UInt8.ofNat n.toNat) else none

def orNull (read : Json → Option α) : Json → Option (Option α)
  | null => some none
  | j => (read j).map some

def member? (members : List (Option String × Json)) (name : String) : Option Json :=
  members.lookup (some name)

/-- Whether every member has a name, and none of the known names stands twice. -/
def wellNamed (known : List String) (members : List (Option String × Json)) : Bool :=
  members.all (·.1.isSome) &&
    known.all fun name => members.countP (·.1 == some name) ≤ 1

end SqlCompose.Json
