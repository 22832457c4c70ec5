import ArchChange.Text.Blank
/-!
The relationship types of the architecture language. A type has a label, a word in models, which
is the label in lower case, and an id, which is that word with `-relationship` after it.
-/
namespace ArchChange

inductive RelationshipType where
  | composition
  | aggregation
  | assignment
  | realization
  | serving
  | access
  | influence
  | triggering
  | flow
  | specialization
  | association
deriving DecidableEq, Repr

namespace RelationshipType

/-- All relationship types, in the order of the language. -/
def all : List RelationshipType :=
  [.composition, .aggregation, .assignment, .realization, .serving, .access, .influence,
   .triggering, .flow, .specialization, .association]

/-- The name of a type in plans. -/
def label : RelationshipType → String
  | composition => "Composition"
  | aggregation => "Aggregation"
  | assignment => "Assignment"
  | realization => "Realization"
  | serving => "Serving"
  | access => "Access"
  | influence => "Influence"
  | triggering => "Triggering"
  | flow => "Flow"
  | specialization => "Specialization"
  | association => "Association"

/-- The name of a type in models. -/
def word (t : RelationshipType) : String :=
  Text.lowerCase t.label

def id (t : RelationshipType) : String :=
  t.word ++ "-relationship"

/-- The type with the given word. -/
def ofWord? (s : String) : Option RelationshipType :=
  all.find? fun t => t.word == s

/-- The type that a label names, up to blanks around it and letter case. The label may end in
the word for relationship, after a space or a hyphen. -/
def ofLabel? (s : String) : Option RelationshipType :=
  let lowered := (Text.lowerCase (Text.trimmed s)).toList
  let bare :=
    ((Text.dropTail? " relationship".toList lowered).orElse fun _ =>
      Text.dropTail? "-relationship".toList lowered).getD lowered
  ofWord? (String.ofList bare)

end RelationshipType

end ArchChange
