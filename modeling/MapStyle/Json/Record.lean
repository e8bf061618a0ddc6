import MapStyle.Json.Basic

/-!
# Records in JSON

A record is a fixed list of named fields. It is written as an object, where other fields do not
count, or as an array of its fields in their order, where fields at the end may be missing. A field
that is null counts as absent.
-/

namespace MapStyle.Json

variable {N α : Type}

/-- The fields of a record with the given field names, if the value is written as one. -/
def record? (names : List String) : Json N → Option (List (String × Json N))
  | .object fields => some fields
  | .array items => if items.length ≤ names.length then some (names.zip items) else none
  | _ => none

/-- Reads a field that has to be there. -/
def required (read : Json N → Option α) (name : String) (fields : List (String × Json N)) :
    Option α :=
  (fields.lookup name).bind read

/-- Reads a field that may be absent. -/
def optional (read : Json N → Option α) (name : String) (fields : List (String × Json N)) :
    Option (Option α) :=
  match fields.lookup name with
  | none | some .null => some none
  | some value => (read value).map some

/-- Reads the name of a choice: a string, or an object with the name as its one field and null in
it. -/
def choice? (choices : List (String × α)) : Json N → Option α
  | .string name => choices.lookup name
  | .object [(name, .null)] => choices.lookup name
  | _ => none

end MapStyle.Json
