import BodyCache.Json.Reader

/-!
# Records in JSON

A record is written as an object. It may also be given as an array of exactly its fields in order.
In an object the order of the names is free, names that the record does not have are skipped, and
a name of the record may occur at most once. A field that may be absent reads as absent when it is
missing or null.

## Main statements

* `Json.fields?`: the values of the named fields.
-/

namespace BodyCache.Json

/-- The values given under a name, in order. -/
def valuesAt (name : String) (members : List (String × Json)) : List Json :=
  (members.filter fun m => m.1 = name).map Prod.snd

/-- The value of a field, absent if the name does not occur; `none` if it occurs twice. -/
def field? (members : List (String × Json)) (name : String) : Option (Option Json) :=
  match valuesAt name members with
  | [] => some none
  | [v] => some (some v)
  | _ => none

/-- The values of the named fields of a record. -/
def fields? (names : List String) : Json → Option (List (Option Json))
  | .object members => names.mapM (field? members)
  | .array items => if items.length = names.length then some (items.map some) else none
  | _ => none

/-! ### Field values -/

/-- A field that must be there. -/
def required {α : Type} (read : Json → Option α) (field : Option Json) : Option α :=
  field.bind read

/-- A field that may be absent. -/
def optional {α : Type} (read : Json → Option α) : Option Json → Option (Option α)
  | none | some .null => some none
  | some j => (read j).map some

/-- A text. -/
def string? : Json → Option String
  | .text s => some s
  | _ => none

/-- A natural number of at most 32 bits. -/
def word32? : Json → Option UInt32
  | .natural n => if n < UInt32.size then some (UInt32.ofNat n) else none
  | _ => none

/-- A natural number of at most eight bits. -/
def byte? : Json → Option UInt8
  | .natural n => if n < 256 then some (UInt8.ofNat n) else none
  | _ => none

/-- A list. -/
def list? {α : Type} (read : Json → Option α) : Json → Option (List α)
  | .array items => items.mapM read
  | _ => none

/-- A value that may be null. -/
def ofOption (write : String → Json) : Option String → Json
  | none => .null
  | some v => write v

end BodyCache.Json
