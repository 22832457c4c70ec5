/-!
What a change plan may contain: the operations, the fields of an action, which fields each
operation uses, what a field may hold, and the limits on a plan.
-/
namespace ArchChange

/-- The fields of an action besides the operation itself. -/
inductive Field where
  | type
  | name
  | refId
  | id
  | key
  | value
  | documentation
  | relationshipType
  | sourceId
  | targetId
  | viewId
  | elementId
  | x
  | y
  | width
  | height
  | folderPath
deriving DecidableEq, Repr

/-- What a field may hold, null apart. -/
inductive FieldKind where
  | text (maxLength : Nat) (allowBlank : Bool)
  | elementTypeLabel
  | relationshipTypeLabel
  | integer (least greatest : Int)
deriving DecidableEq, Repr

namespace Field

/-- All fields, in the order in which they are written. -/
def all : List Field :=
  [.type, .name, .refId, .id, .key, .value, .documentation, .relationshipType, .sourceId,
   .targetId, .viewId, .elementId, .x, .y, .width, .height, .folderPath]

/-- The key of a field in an action. -/
def spelling : Field → String
  | type => "type"
  | name => "name"
  | refId => "ref_id"
  | id => "id"
  | key => "key"
  | value => "value"
  | documentation => "documentation"
  | relationshipType => "relationship_type"
  | sourceId => "source_id"
  | targetId => "target_id"
  | viewId => "view_id"
  | elementId => "element_id"
  | x => "x"
  | y => "y"
  | width => "width"
  | height => "height"
  | folderPath => "folder_path"

def ofSpelling? (s : String) : Option Field :=
  all.find? fun f => f.spelling == s

/-- What a field that names an entity may hold. -/
def idKind : FieldKind := .text 128 false

def kind : Field → FieldKind
  | type => .elementTypeLabel
  | name => .text 256 false
  | refId => idKind
  | id => idKind
  | key => .text 128 false
  | value => .text 4000 true
  | documentation => .text 8000 true
  | relationshipType => .relationshipTypeLabel
  | sourceId => idKind
  | targetId => idKind
  | viewId => idKind
  | elementId => idKind
  | x => .integer 0 20000
  | y => .integer 0 20000
  | width => .integer 10 2000
  | height => .integer 10 2000
  | folderPath => .text 512 false

end Field

/-- The fields that an operation uses. -/
structure Contract where
  required : List Field
  optional : List Field

namespace Contract

def fields (c : Contract) : List Field :=
  c.required ++ c.optional

def declares (c : Contract) (f : Field) : Bool :=
  c.fields.contains f

end Contract

/-- The operations of a plan. -/
inductive OpKind where
  | createElement
  | renameElement
  | deleteElement
  | setProperty
  | removeProperty
  | setDocumentation
  | createRelationship
  | deleteRelationship
  | createView
  | addToView
  | moveToFolder
deriving DecidableEq, Repr

namespace OpKind

def all : List OpKind :=
  [.createElement, .renameElement, .deleteElement, .setProperty, .removeProperty,
   .setDocumentation, .createRelationship, .deleteRelationship, .createView, .addToView,
   .moveToFolder]

def name : OpKind → String
  | createElement => "create_element"
  | renameElement => "rename_element"
  | deleteElement => "delete_element"
  | setProperty => "set_property"
  | removeProperty => "remove_property"
  | setDocumentation => "set_documentation"
  | createRelationship => "create_relationship"
  | deleteRelationship => "delete_relationship"
  | createView => "create_view"
  | addToView => "add_to_view"
  | moveToFolder => "move_to_folder"

def ofName? (s : String) : Option OpKind :=
  all.find? fun op => op.name == s

def contract : OpKind → Contract
  | createElement => ⟨[.type, .name], [.refId, .documentation]⟩
  | renameElement => ⟨[.id, .name], []⟩
  | deleteElement => ⟨[.id], []⟩
  | setProperty => ⟨[.id, .key, .value], []⟩
  | removeProperty => ⟨[.id, .key], []⟩
  | setDocumentation => ⟨[.id, .documentation], []⟩
  | createRelationship => ⟨[.relationshipType, .sourceId, .targetId], [.name]⟩
  | deleteRelationship => ⟨[.id], []⟩
  | createView => ⟨[.name], [.refId]⟩
  | addToView => ⟨[.viewId, .elementId], [.x, .y, .width, .height]⟩
  | moveToFolder => ⟨[.id, .folderPath], []⟩

/-- Whether a key of an action belongs to the operation. -/
def declaresKey (op : OpKind) (key : String) : Bool :=
  (Field.ofSpelling? key).any op.contract.declares

end OpKind

namespace Limits

def maxActions : Nat := 100
def maxSummary : Nat := 2000
def maxQuestions : Nat := 10
def maxQuestion : Nat := 500
def maxTypeLabel : Nat := 64

end Limits

/-- The versions of the plan format. -/
inductive SchemaVersion where
  | v1
  | v2
deriving DecidableEq, Repr

namespace SchemaVersion

def all : List SchemaVersion := [.v1, .v2]

def name : SchemaVersion → String
  | v1 => "1.0"
  | v2 => "2.0"

def names : List String := all.map name

def ofName? (s : String) : Option SchemaVersion :=
  all.find? fun v => v.name == s

end SchemaVersion

/-- What the producer of a plan says about it. -/
inductive PlanStatus where
  | ready
  | needsClarification
  | refusal
deriving DecidableEq, Repr

namespace PlanStatus

def all : List PlanStatus := [.ready, .needsClarification, .refusal]

def name : PlanStatus → String
  | ready => "ready"
  | needsClarification => "needs_clarification"
  | refusal => "refusal"

def names : List String := all.map name

def ofName? (s : String) : Option PlanStatus :=
  all.find? fun v => v.name == s

end PlanStatus

/-- The fields of a plan. -/
inductive PlanField where
  | schemaVersion
  | status
  | summary
  | questions
  | actions
deriving DecidableEq, Repr

namespace PlanField

def all : List PlanField := [.schemaVersion, .status, .summary, .questions, .actions]

/-- The fields that a plan cannot do without. -/
def required : List PlanField := [.schemaVersion, .status, .summary, .actions]

/-- The key of a field in a plan. -/
def spelling : PlanField → String
  | schemaVersion => "schema_version"
  | status => "status"
  | summary => "summary"
  | questions => "questions"
  | actions => "actions"

def spellings : List String := all.map spelling

end PlanField

end ArchChange
