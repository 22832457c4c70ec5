import ArchChange.Json.Basic
import ArchChange.Model.Basic
import ArchChange.Plan.Catalog
/-!
What validation can find wrong with a plan. An issue says where it is and what is the matter;
whether it blocks the plan depends on the list that it stands in.
-/
namespace ArchChange.Validation

/-- What can be wrong with the JSON value of a plan. -/
inductive SchemaProblem where
  | planNotAnObject
  | unknownField
  | missing
  | notOneOf (value : String) (allowed : List String)
  | notAString
  | tooLong (length limit : Nat)
  | blank
  | questionsNotAnArray
  | tooManyQuestions (count : Nat)
  | questionTooLong
  | actionsNotAnArray
  | tooManyActions (count : Nat)
  | actionNotAnObject
  | unknownOp (name : String)
  | unusedBy (op : OpKind)
  | requiredBy (op : OpKind)
  | unknownElementType (label : String)
  | unknownRelationshipType (label : String)
  | notAnInteger
  | outside (value least greatest : Int)
  | coordinateAlone
  | undecodable
  /-- A plan that is ready but does nothing. -/
  | nothingToDo
  /-- A plan that needs clarification but does not say which. -/
  | nothingToClarify
deriving DecidableEq, Repr

def SchemaProblem.message : SchemaProblem → String
  | planNotAnObject => "plan must be a JSON object"
  | unknownField => "unknown top-level field"
  | missing => "required field is missing"
  | notOneOf value allowed => s!"'{value}' is not one of " ++ ", ".intercalate allowed
  | notAString => "must be a string"
  | tooLong length limit => s!"{length} characters exceeds the limit of {limit}"
  | blank => "must not be empty"
  | questionsNotAnArray => "must be an array or null"
  | tooManyQuestions count =>
    s!"{count} questions exceeds the limit of {Limits.maxQuestions}"
  | questionTooLong => s!"exceeds the limit of {Limits.maxQuestion} characters"
  | actionsNotAnArray => "must be an array"
  | tooManyActions count => s!"{count} actions exceeds the limit of {Limits.maxActions}"
  | actionNotAnObject => "action must be a JSON object"
  | unknownOp name => s!"unknown op '{name}'"
  | unusedBy op => s!"field is not used by {op.name}"
  | requiredBy op => s!"required by {op.name}"
  | unknownElementType label => s!"unknown element type '{label}'"
  | unknownRelationshipType label => s!"unknown relationship type '{label}'"
  | notAnInteger => "must be an integer"
  | outside value least greatest => s!"{value} is outside {least}..={greatest}"
  | coordinateAlone => "x and y must be given together"
  | undecodable => "decode change plan"
  | nothingToDo => "plan is ready but contains no actions"
  | nothingToClarify => "plan needs clarification but asks no questions"

/-- What can be wrong with an action in view of the model and the actions before it. -/
inductive SemanticProblem where
  | deletedBefore (id : String) (action : Nat)
  | notFound (id : String)
  | outsideScope (id : String)
  | deletesRelationship (id : String)
  | relationshipNotFound (id : String)
  | notARelationship (id : String) (kind : EntityKind)
  | viewAsEndpoint (id : String)
  | viewOnView (id : String)
  | relationshipOnView (id : String)
  | refDeclaredTwice (id : String)
  | refNamesElement (id : String)
  | notAView (id : String) (kind : EntityKind)
  | viewNotFound (id : String)
  /-- A reference with the id of a live entity. -/
  | refShadows (id : String)
  /-- A deletion that takes attached relationships with it. -/
  | cascades (id : String) (count : Nat)
  | renamedTwice (id : String)
  | propertySetTwice (key id : String)
  | documentedTwice (id : String)
  /-- A relationship that the rules do not allow, and the types that they do. -/
  | notPermitted (type : RelationshipType) (source target : ElementType)
      (permitted : List RelationshipType)
deriving DecidableEq, Repr

def SemanticProblem.message : SemanticProblem → String
  | deletedBefore id action => s!"'{id}' was deleted by action {action}"
  | notFound id => s!"'{id}' not found in the model or earlier ref_ids"
  | outsideScope id => s!"'{id}' is outside the selected scope"
  | deletesRelationship id => s!"'{id}' is a relationship; use delete_relationship"
  | relationshipNotFound id => s!"relationship '{id}' not found in the model"
  | notARelationship id kind => s!"'{id}' is not a relationship ({kind.label})"
  | viewAsEndpoint id => s!"'{id}' is a view and cannot be a relationship endpoint"
  | viewOnView id => s!"'{id}' is a view and cannot be placed on a view"
  | relationshipOnView id =>
    s!"'{id}' is a relationship; relationships are connected automatically"
  | refDeclaredTwice id => s!"duplicate ref_id '{id}'"
  | refNamesElement id => s!"ref_id '{id}' names an element, not a view"
  | notAView id kind => s!"'{id}' is not a view ({kind.label})"
  | viewNotFound id => s!"view '{id}' not found in the model or earlier ref_ids"
  | refShadows id => s!"ref_id '{id}' shadows an existing model id"
  | cascades id count => s!"deleting '{id}' also deletes {count} attached relationship(s)"
  | renamedTwice id => s!"'{id}' is renamed more than once"
  | propertySetTwice key id => s!"property '{key}' on '{id}' is set more than once"
  | documentedTwice id => s!"documentation of '{id}' is set more than once"
  | notPermitted type source target permitted =>
    s!"{type.label} is not permitted from {source.label} to {target.label}; " ++
      match permitted with
      | [] => "no relationship types are permitted"
      | types => "permitted: " ++ ", ".intercalate (types.map RelationshipType.label)

/-- The phases of validation. -/
inductive Phase where
  | schema
  | semantic
deriving DecidableEq, Repr

def Phase.name : Phase → String
  | schema => "schema"
  | semantic => "semantic"

/-- A problem of either phase. -/
inductive Problem where
  | schema (problem : SchemaProblem)
  | semantic (problem : SemanticProblem)
deriving DecidableEq, Repr

namespace Problem

def phase : Problem → Phase
  | schema _ => .schema
  | semantic _ => .semantic

def message : Problem → String
  | schema problem => problem.message
  | semantic problem => problem.message

end Problem

/-- A problem and where it is: in a field, in an action, in a field of an action, or in the plan
as a whole. -/
structure Issue where
  action : Option Nat
  field : Option String
  problem : Problem
deriving DecidableEq, Repr

namespace Issue

def phase (i : Issue) : Phase :=
  i.problem.phase

def message (i : Issue) : String :=
  i.problem.message

/-- An issue on one line. -/
def render (i : Issue) : String :=
  match i.action, i.field with
  | some index, some field => s!"actions[{index}].{field}: {i.message}"
  | some index, none => s!"actions[{index}]: {i.message}"
  | none, some field => s!"{field}: {i.message}"
  | none, none => i.message

def toJson (i : Issue) : Json :=
  .obj (
    [("phase", .str i.phase.name)] ++
    (match i.action with
      | some index => [("action_index", .nat index)]
      | none => []) ++
    (match i.field with
      | some field => [("field", .str field)]
      | none => []) ++
    [("message", .str i.message)])

end Issue

end ArchChange.Validation
