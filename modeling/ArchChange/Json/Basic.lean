import ArchChange.Json.Double
import ArchChange.Keyed
/-!
JSON values. An object is a list of fields; values that come from a text have each key once and
the keys in ascending order (`Json.object` builds such objects).
-/
namespace ArchChange

/-- A JSON number: an integer if it was written as one, else a double. -/
inductive Number where
  | int (value : Int)
  | double (value : Double)
deriving DecidableEq, Repr

inductive Json where
  | null
  | bool (value : Bool)
  | num (value : Number)
  | str (value : String)
  | arr (items : List Json)
  | obj (fields : List (String × Json))
deriving Repr, Inhabited

namespace Json

/-- The kinds of values. -/
inductive Kind where
  | null
  | boolean
  | number
  | string
  | array
  | object
deriving DecidableEq, Repr

def Kind.name : Kind → String
  | .null => "null"
  | .boolean => "boolean"
  | .number => "number"
  | .string => "string"
  | .array => "array"
  | .object => "object"

def kind : Json → Kind
  | null => .null
  | bool _ => .boolean
  | num _ => .number
  | str _ => .string
  | arr _ => .array
  | obj _ => .object

/-- The object with the given fields in ascending order of keys; of two values for one key the
later stays. -/
def object (fields : List (String × Json)) : Json :=
  obj (Keyed.ofList fields)

def int (n : Int) : Json :=
  num (.int n)

def nat (n : Nat) : Json :=
  int n

def strings (texts : List String) : Json :=
  arr (texts.map str)

def isNull : Json → Bool
  | null => true
  | _ => false

def text? : Json → Option String
  | str s => some s
  | _ => none

def bool? : Json → Option Bool
  | bool b => some b
  | _ => none

def items? : Json → Option (List Json)
  | arr items => some items
  | _ => none

def fields? : Json → Option (List (String × Json))
  | obj fields => some fields
  | _ => none

/-- The number, if it is written as an integer and fits 64 bits with sign. -/
def int64? : Json → Option Int
  | num (.int n) => if -0x8000000000000000 ≤ n ∧ n < 0x8000000000000000 then some n else none
  | _ => none

/-- The number, if it is written as an integer and fits 64 bits without sign. -/
def nat64? : Json → Option Nat
  | num (.int n) => if 0 ≤ n ∧ n < 0x10000000000000000 then some n.toNat else none
  | _ => none

/-- The value of a field of an object. -/
def get? (v : Json) (key : String) : Option Json :=
  match v with
  | obj fields => fields.lookup key
  | _ => none

/-- The value of a field, unless the field is absent or null. -/
def present? (fields : List (String × Json)) (key : String) : Option Json :=
  (fields.lookup key).filter fun v => !v.isNull

end Json

end ArchChange
