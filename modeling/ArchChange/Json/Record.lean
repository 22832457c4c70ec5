import ArchChange.Json.Basic
/-!
Records written in JSON. A record is an object with a field for each of its parts, or an array
with the values of its first parts in order. Unknown fields of an object are ignored.
-/
namespace ArchChange.Json

/-- The parts of a record that are there. -/
def record? (names : List String) : Json → Option (List (String × Json))
  | obj fields => some fields
  | arr values => if values.length ≤ names.length then some (names.zip values) else none
  | _ => none

/-- A part that must be there. -/
def required? {α : Type} (fields : List (String × Json)) (name : String)
    (read : Json → Option α) : Option α :=
  (fields.lookup name).bind read

/-- A part that has a value when it is not there. -/
def defaulted? {α : Type} (fields : List (String × Json)) (name : String) (value : α)
    (read : Json → Option α) : Option α :=
  match fields.lookup name with
  | none => some value
  | some v => read v

/-- The items of an array, each read in the same way. -/
def list? {α : Type} (read : Json → Option α) (v : Json) : Option (List α) :=
  v.items?.bind fun items => items.mapM read

/-- The name in a closed set of names: a string, or an object with the name as its only key and
null as the value. -/
def name? : Json → Option String
  | str s => some s
  | obj [(key, null)] => some key
  | _ => none

end ArchChange.Json
