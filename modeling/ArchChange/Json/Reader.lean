import ArchChange.Json.Basic
import ArchChange.Json.Document
/-!
From documents to values. Reading refuses numbers too large for a double, halves of surrogate
pairs and nesting deeper than `maxDepth`, but only in the part of a document that a `Selection`
asks for; the rest need only be well-formed.
-/
namespace ArchChange

/-- How deeply arrays and objects may be nested. -/
def Json.maxDepth : Nat := 127

namespace NumberText

/-- Takes digits into a number while it stays below `2 ^ 64`, and counts the digits left over. -/
def takeWhole (ds : List Nat) : Nat × Nat :=
  ds.foldl (fun (n, left) d =>
    if left = 0 ∧ n * 10 + d < 0x10000000000000000 then (n * 10 + d, 0)
    else (n, left + 1)) (0, 0)

/-- Takes further digits into `n` while it stays below `2 ^ 64`, and counts those taken. -/
def takeFraction (n : Nat) : List Nat → Nat × Nat
  | [] => (n, 0)
  | d :: ds =>
    if n * 10 + d < 0x10000000000000000 then
      let (m, taken) := takeFraction (n * 10 + d) ds
      (m, taken + 1)
    else (n, 0)

/-- The number written. Without decimal point and exponent, and within 64 bits, it is an
integer, except that `-0` is a double. -/
def value? (t : NumberText) : Option Number :=
  let (n, left) := takeWhole t.whole
  let double (n : Nat) (e : Int) : Option Number :=
    (Magnitude.scale? n e).map fun v => .double ⟨t.negative, v⟩
  match t.fraction, t.exponent with
  | none, none =>
    if 0 < left then double n left
    else if !t.negative then some (.int n)
    else if 0 < n ∧ n ≤ 0x8000000000000000 then some (.int (-(n : Int)))
    else double n 0
  | fraction, exponent =>
    let (m, taken) := takeFraction n (fraction.getD [])
    double m ((left : Int) - taken + exponent.getD 0)

end NumberText

/-- Which parts of a document are read. The parts have names in `κ`. -/
structure Selection (κ : Type) where
  /-- What the value of a field is; `none` for a field that is not read. -/
  field : κ → String → Option κ
  /-- What an item of an array is. -/
  item : κ → Nat → κ
  /-- Whether a repeated key is refused; if not, its last value counts. -/
  distinct : κ → Bool
  /-- Whether the value of a field is refused unless it is a string, even if a later value takes
  its place. -/
  text : κ → Bool

/-- Reads all of a document. -/
def Selection.everything : Selection Unit :=
  ⟨fun _ _ => some (), fun _ _ => (), fun _ => false, fun _ => false⟩

namespace Document

variable {κ : Type}

def distinctKeys (fields : List (String × Json)) : Bool :=
  decide (fields.map (·.1)).Nodup

mutual

/-- The value of the selected part of a document, with at most `depth` levels of nesting. -/
def select? (sel : Selection κ) (depth : Nat) (part : κ) : Document → Option Json
  | null => some .null
  | bool b => some (.bool b)
  | number t => t.value?.map .num
  | string t => t.map .str
  | array items =>
    match depth with
    | 0 => none
    | depth + 1 => (selectItems? sel depth part 0 items).map .arr
  | object fields =>
    match depth with
    | 0 => none
    | depth + 1 => do
      let fields ← selectFields? sel depth part fields
      if sel.distinct part && !distinctKeys fields then none else some (.object fields)
termination_by structural d => d

def selectItems? (sel : Selection κ) (depth : Nat) (part : κ) (index : Nat) :
    List Document → Option (List Json)
  | [] => some []
  | d :: ds => do
    let v ← select? sel depth (sel.item part index) d
    let vs ← selectItems? sel depth part (index + 1) ds
    some (v :: vs)
termination_by structural ds => ds

def selectFields? (sel : Selection κ) (depth : Nat) (part : κ) :
    List (Option String × Document) → Option (List (String × Json))
  | [] => some []
  | (key, d) :: ds =>
    match key with
    | none => none
    | some key =>
      match sel.field part key with
      | none => selectFields? sel depth part ds
      | some p => do
        let v ← select? sel depth p d
        let vs ← selectFields? sel depth part ds
        if sel.text p && v.kind != .string then none else some ((key, v) :: vs)
termination_by structural ds => ds

end

/-- The value of a whole document. -/
def value (d : Document) : Option Json :=
  d.select? .everything Json.maxDepth ()

end Document

namespace Json

/-- The value that a text consists of. -/
def ofText? (s : List Char) : Option Json :=
  (Document.read? s).bind Document.value

/-- The value at the start of a text, whatever follows it. -/
def firstOfText? (s : List Char) : Option Json :=
  (Document.readFirst? s).bind fun r => r.1.value

/-- The selected part of the value that a text consists of. -/
def ofTextSelecting? {κ : Type} (sel : Selection κ) (part : κ) (s : List Char) : Option Json :=
  (Document.read? s).bind fun d => d.select? sel maxDepth part

end Json

end ArchChange
