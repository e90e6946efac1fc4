import Rollup.Json.Value
import Rollup.Word

/-! Reading typed data out of a JSON value. A record is an object, or an array of its fields in
order; an object may have members that are no fields, but no field twice. -/

namespace Rollup.Json

/-- A natural number up to a bound, without sign, fraction or exponent. -/
def natural? (largest : Nat) : Json → Option Nat
  | .number literal =>
    match Word.digits? literal with
    | some n => if n ≤ largest then some n else none
    | none => none
  | _ => none

def word? (value : Json) : Option UInt64 := (value.natural? Word.largest).map UInt64.ofNat

def byte? (value : Json) : Option UInt8 := (value.natural? 255).map UInt8.ofNat

def bool? : Json → Option Bool
  | .bool value => some value
  | _ => none

def list? (item? : Json → Option α) : Json → Option (List α)
  | .array items => items.mapM item?
  | _ => none

/-- One of several names, as a string or as the only member, `null`, of an object. -/
def choice? (named? : String → Option α) : Json → Option α
  | .text (some name) => named? name
  | .object [(some name, .null)] => named? name
  | _ => none

/-- Every member of an object with its name. -/
def entries? (item? : Json → Option α) : Json → Option (List (String × α))
  | .object members =>
    members.mapM fun
      | (some name, value) => (item? value).map (name, ·)
      | (none, _) => none
  | _ => none

def occurrences (name : String) (members : List (Option String × Json)) : Nat :=
  members.countP fun member => member.1 == some name

/-- The fields of a record in order; absent ones are none. -/
def fields? (names : List String) : Json → Option (List (Option Json))
  | .array items =>
    if items.length ≤ names.length then
      some (items.map some ++ List.replicate (names.length - items.length) none)
    else none
  | .object members =>
    if members.all (·.1.isSome) && names.all fun name => occurrences name members ≤ 1 then
      some (names.map fun name => (members.find? fun member => member.1 == some name).map (·.2))
    else none
  | _ => none

/-- A field that may be absent. -/
def orDefault (absent : α) (item? : Json → Option α) : Option Json → Option α
  | none => some absent
  | some value => item? value

end Rollup.Json
