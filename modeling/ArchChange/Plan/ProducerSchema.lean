import ArchChange.Json.Basic
import ArchChange.Plan.Catalog
/-!
The schema handed to producers of plans. Their output has one flat shape of action that carries
every field of every operation, so all fields but the operation may be null.
-/
namespace ArchChange.Plan

def typeNames (name : String) : Json :=
  .strings [name, "null"]

/-- The schema of a field's value. -/
def fieldSchema : FieldKind → Json
  | .text maxLength allowBlank =>
    .object (
      [("type", typeNames "string"), ("maxLength", .nat maxLength)] ++
        if allowBlank then [] else [("minLength", .nat 1)])
  | .elementTypeLabel | .relationshipTypeLabel =>
    .object [("type", typeNames "string"), ("minLength", .nat 1),
      ("maxLength", .nat Limits.maxTypeLabel)]
  | .integer least greatest =>
    .object [("type", typeNames "integer"), ("minimum", .int least), ("maximum", .int greatest)]

/-- The schema of a string from a closed set. -/
def choiceSchema (names : List String) : Json :=
  .object [("type", .str "string"), ("enum", .strings names)]

/-- The schema of an object with exactly the given fields. -/
def recordSchema (fields : List (String × Json)) : Json :=
  .object [
    ("type", .str "object"),
    ("additionalProperties", .bool false),
    ("required", .strings (fields.map Prod.fst)),
    ("properties", .object fields)]

def actionSchema : Json :=
  recordSchema (("op", choiceSchema (OpKind.all.map OpKind.name)) ::
    Field.all.map fun f => (f.spelling, fieldSchema f.kind))

/-- The schema of the value of a plan's field. -/
def planFieldSchema : PlanField → Json
  | .schemaVersion => choiceSchema SchemaVersion.names
  | .status => choiceSchema PlanStatus.names
  | .summary => .object [("type", .str "string"), ("maxLength", .nat Limits.maxSummary)]
  | .questions =>
    .object [
      ("type", typeNames "array"),
      ("maxItems", .nat Limits.maxQuestions),
      ("items", .object [("type", .str "string"), ("minLength", .nat 1),
        ("maxLength", .nat Limits.maxQuestion)])]
  | .actions =>
    .object [("type", .str "array"), ("maxItems", .nat Limits.maxActions),
      ("items", actionSchema)]

/-- The schema of a whole plan. -/
def producerSchema : Json :=
  recordSchema (PlanField.all.map fun f => (f.spelling, planFieldSchema f))

end ArchChange.Plan
