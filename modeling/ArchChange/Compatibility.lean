import ArchChange.Vocabulary.ElementType
import ArchChange.Vocabulary.RelationshipType
/-!
Which relationship types may join which element types, and how labels are looked up. An `Oracle`
answers both questions; `Oracle.bundled` holds the rules of the language in condensed form.
-/
namespace ArchChange

/-- Answers the questions of a validator about the language. -/
structure Oracle where
  /-- Whether a relationship of the given type may go from the first type to the second. -/
  isAllowed : ElementType → ElementType → RelationshipType → Bool
  elementTypeFor : String → Option ElementType
  relationshipTypeFor : String → Option RelationshipType

/-- A space between each small letter or digit and a capital that follows it. -/
def spaceWords : List Char → List Char
  | c :: d :: s =>
    if (c.isLower || c.isDigit) && d.isUpper then c :: ' ' :: spaceWords (d :: s)
    else c :: spaceWords (d :: s)
  | s => s

/-- A label with a space before each capital inside a word. -/
def spacedLabel (s : String) : String :=
  String.ofList (spaceWords s.toList)

/-- A label without the blanks around it and with its words set apart, if that changes it. -/
def respaced? (s : String) : Option String :=
  let plain := Text.trimmed s
  let spaced := spacedLabel plain
  if spaced = plain then none else some spaced

namespace Oracle

/-- The element type of a label, read as it stands or else with its words set apart. -/
def elementType? (o : Oracle) (label : String) : Option ElementType :=
  (o.elementTypeFor label).orElse fun _ => (respaced? label).bind o.elementTypeFor

/-- The relationship type of a label, read as it stands or else with its words set apart. -/
def relationshipType? (o : Oracle) (label : String) : Option RelationshipType :=
  (o.relationshipTypeFor label).orElse fun _ => (respaced? label).bind o.relationshipTypeFor

/-- The relationship types that may go from one element type to another. -/
def allowed (o : Oracle) (source target : ElementType) : List RelationshipType :=
  RelationshipType.all.filter (o.isAllowed source target)

end Oracle

namespace Rules

/-- Composition and aggregation. -/
def structural (s t : ElementType) : Bool :=
  if s = t then true
  else match s with
    | .grouping | .location | .plateau => true
    | .product => t.layer.isCore || t = .contract
    | _ =>
      if s.layer ≠ t.layer then
        (s.layer = .technology && t.layer = .physical) ||
          (s.layer = .physical && t.layer = .technology)
      else
        s.aspect = t.aspect || (s.aspect.isActive && t.aspect.isActive) ||
          (s.aspect.isBehavioral && t.aspect.isBehavioral) || s.layer = .motivation

def assignment (s t : ElementType) : Bool :=
  match s, t with
  | .businessActor, .businessRole => true
  | .resource, .capability => true
  | .businessActor, .workPackage | .businessRole, .workPackage => true
  | _, .artifact => s.layer = .technology && s.aspect.isActive
  | .stakeholder, _ => false
  | _, _ =>
    s.layer.isCore && s.aspect.isActive && t.aspect.isBehavioral &&
      (s.layer = t.layer || (s.layer = .physical && t.layer = .technology))

/-- Whether one core layer ranks below another. -/
def ranksBelow (l m : Layer) : Bool :=
  match l.servingRank, m.servingRank with
  | some a, some b => a < b
  | _, _ => false

/-- Whether one core layer ranks below another or level with it. -/
def ranksUpTo (l m : Layer) : Bool :=
  match l.servingRank, m.servingRank with
  | some a, some b => a ≤ b
  | _, _ => false

/-- Realization by an element in general: a service by the structure and behaviour of its
layer, anything else by the same aspect of a lower layer. -/
def realizationByLayer (s t : ElementType) : Bool :=
  if t.aspect = .service then
    s.layer = t.layer && (s.aspect.isBehavioral || s.aspect.isActive) && s.aspect ≠ .service
  else ranksBelow s.layer t.layer && s.aspect = t.aspect && s.aspect ≠ .interface

def realization (s t : ElementType) : Bool :=
  match t with
  | .requirement | .principle | .constraint | .goal | .outcome =>
    s.layer.isCore || s.layer = .implementation || s.layer = .strategy
  | _ =>
    match s, t with
    | .workPackage, .deliverable => true
    | .deliverable, _ => t.layer.isCore || t.layer = .implementation
    | .artifact, .applicationComponent | .artifact, .dataObject => true
    | .artifact, .systemSoftware => true
    | .dataObject, .businessObject => true
    | .businessObject, .representation => false
    | .representation, .businessObject => true
    | _, .capability | _, .valueStream =>
      s.layer.isCore && (s.aspect.isBehavioral || s.aspect.isActive)
    | _, _ => realizationByLayer s t

def serving (s t : ElementType) : Bool :=
  if s.layer = .strategy && t.layer = .strategy then
    s.aspect.isBehavioral && t.aspect.isBehavioral
  else
    ranksUpTo s.layer t.layer && (s.aspect.isBehavioral || s.aspect.isActive) &&
      (t.aspect.isBehavioral || t.aspect.isActive) && s.aspect ≠ .event

def access (s t : ElementType) : Bool :=
  t.aspect = .passiveStructure && t.layer.isCore && s.layer.isCore &&
    (s.aspect.isBehavioral || s.aspect.isActive)

def influence (s t : ElementType) : Bool :=
  (t.layer = .motivation && t ≠ .stakeholder) ||
    (s.layer = .motivation && t.layer = .motivation)

/-- Triggering and flow. -/
def dynamic (s t : ElementType) : Bool :=
  match s.layer, t.layer with
  | .strategy, .strategy => s.aspect.isBehavioral && t.aspect.isBehavioral
  | .implementation, .implementation =>
    (s.aspect = .behavior || s.aspect = .event) && (t.aspect = .behavior || t.aspect = .event)
  | _, _ =>
    s.layer.isCore && t.layer.isCore &&
      ((s.aspect.isBehavioral && t.aspect.isBehavioral) ||
        (s.aspect.isActive && t.aspect.isActive)) &&
      (s.layer = t.layer || s.aspect ≠ t.aspect || s.aspect = .event)

/-- The rules of the language: a junction takes all but specialization, association is always
allowed, and specialization joins a type with itself. -/
def isAllowed (s t : ElementType) (r : RelationshipType) : Bool :=
  if s = .junction || t = .junction then r ≠ .specialization
  else match r with
    | .association => true
    | .specialization => s = t
    | .composition | .aggregation => structural s t
    | .assignment => assignment s t
    | .realization => realization s t
    | .serving => serving s t
    | .access => access s t
    | .influence => influence s t
    | .triggering | .flow => dynamic s t

end Rules

namespace Oracle

/-- The rules of the language, with labels read as the language writes them. -/
def bundled : Oracle :=
  ⟨Rules.isAllowed, ElementType.ofLabel?, RelationshipType.ofLabel?⟩

end Oracle

end ArchChange
