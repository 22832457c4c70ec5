import ArchChange.Json.Record
import ArchChange.Plan.Action
/-!
Change plans as JSON values. Decoding ignores the fields that an operation does not use and
checks no limits; encoding writes every field that the operation uses, null if it is absent.
-/
namespace ArchChange

/-- The values of an action's fields, as far as they are given. -/
abbrev Slots := Field → Option Json

namespace Slots

/-- A text that must be given. -/
def text? (slots : Slots) (f : Field) : Option String :=
  (slots f).bind Json.text?

/-- A value that may be absent or null. -/
def optional? {α : Type} (slots : Slots) (f : Field) (read : Json → Option α) :
    Option (Option α) :=
  match slots f with
  | none | some .null => some none
  | some v => (read v).map some

end Slots

namespace Action

/-- The action of an operation with the given fields. -/
def ofSlots? (slots : Slots) : OpKind → Option Action
  | .createElement => do
    some (.createElement (← slots.text? .type) (← slots.text? .name)
      (← slots.optional? .refId Json.text?) (← slots.optional? .documentation Json.text?))
  | .renameElement => do
    some (.renameElement (← slots.text? .id) (← slots.text? .name))
  | .deleteElement => do
    some (.deleteElement (← slots.text? .id))
  | .setProperty => do
    some (.setProperty (← slots.text? .id) (← slots.text? .key) (← slots.text? .value))
  | .removeProperty => do
    some (.removeProperty (← slots.text? .id) (← slots.text? .key))
  | .setDocumentation => do
    some (.setDocumentation (← slots.text? .id) (← slots.text? .documentation))
  | .createRelationship => do
    some (.createRelationship (← slots.text? .relationshipType) (← slots.text? .sourceId)
      (← slots.text? .targetId) (← slots.optional? .name Json.text?))
  | .deleteRelationship => do
    some (.deleteRelationship (← slots.text? .id))
  | .createView => do
    some (.createView (← slots.text? .name) (← slots.optional? .refId Json.text?))
  | .addToView => do
    some (.addToView (← slots.text? .viewId) (← slots.text? .elementId)
      (← slots.optional? .x Json.int64?) (← slots.optional? .y Json.int64?)
      (← slots.optional? .width Json.int64?) (← slots.optional? .height Json.int64?))
  | .moveToFolder => do
    some (.moveToFolder (← slots.text? .id) (← slots.text? .folderPath))

/-- Reads an action: an object, or an array of the operation's name and the values of all its
fields. -/
def ofJson? : Json → Option Action
  | .obj fields => do
    let op ← OpKind.ofName? (← (← fields.lookup "op").text?)
    ofSlots? (fun f => fields.lookup f.spelling) op
  | .arr (.str name :: values) => do
    let op ← OpKind.ofName? name
    if values.length = op.contract.fields.length then
      ofSlots? (fun f => (op.contract.fields.zip values).lookup f) op
    else none
  | _ => none

def optionalText : Option String → Json
  | none => .null
  | some s => .str s

def optionalInt : Option Int → Json
  | none => .null
  | some n => .int n

/-- The fields of an action and their values, in the order of the operation's contract. -/
def slots : Action → List (Field × Json)
  | createElement type name refId documentation =>
    [(.type, .str type), (.name, .str name), (.refId, optionalText refId),
     (.documentation, optionalText documentation)]
  | renameElement id name => [(.id, .str id), (.name, .str name)]
  | deleteElement id => [(.id, .str id)]
  | setProperty id key value => [(.id, .str id), (.key, .str key), (.value, .str value)]
  | removeProperty id key => [(.id, .str id), (.key, .str key)]
  | setDocumentation id documentation =>
    [(.id, .str id), (.documentation, .str documentation)]
  | createRelationship type sourceId targetId name =>
    [(.relationshipType, .str type), (.sourceId, .str sourceId), (.targetId, .str targetId),
     (.name, optionalText name)]
  | deleteRelationship id => [(.id, .str id)]
  | createView name refId => [(.name, .str name), (.refId, optionalText refId)]
  | addToView viewId elementId x y width height =>
    [(.viewId, .str viewId), (.elementId, .str elementId), (.x, optionalInt x),
     (.y, optionalInt y), (.width, optionalInt width), (.height, optionalInt height)]
  | moveToFolder id folderPath => [(.id, .str id), (.folderPath, .str folderPath)]

def toJson (a : Action) : Json :=
  .obj (("op", .str a.op.name) :: a.slots.map fun s => (s.1.spelling, s.2))

theorem slots_fst (a : Action) : a.slots.map Prod.fst = a.op.contract.fields := by
  cases a <;> rfl

end Action

namespace ChangePlan

/-- The questions of a plan; null stands for none. -/
def questionsOf? : Json → Option (List String)
  | .null => some []
  | v => Json.list? Json.text? v

def ofJson? (v : Json) : Option ChangePlan := do
  let fields ← v.record? PlanField.spellings
  some {
    schemaVersion := ← Json.required? fields PlanField.schemaVersion.spelling fun v =>
      v.name?.bind SchemaVersion.ofName?
    status := ← Json.required? fields PlanField.status.spelling fun v =>
      v.name?.bind PlanStatus.ofName?
    summary := ← Json.required? fields PlanField.summary.spelling Json.text?
    questions := ← Json.defaulted? fields PlanField.questions.spelling [] questionsOf?
    actions := ← Json.required? fields PlanField.actions.spelling (Json.list? Action.ofJson?)
  }

def toJson (p : ChangePlan) : Json :=
  .obj [
    (PlanField.schemaVersion.spelling, .str p.schemaVersion.name),
    (PlanField.status.spelling, .str p.status.name),
    (PlanField.summary.spelling, .str p.summary),
    (PlanField.questions.spelling, .strings p.questions),
    (PlanField.actions.spelling, .arr (p.actions.map Action.toJson))]

end ChangePlan

end ArchChange
