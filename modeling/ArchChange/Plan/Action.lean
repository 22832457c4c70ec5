import ArchChange.Plan.Catalog
/-!
Change plans after decoding: a list of actions, each with the fields of its own operation.
-/
namespace ArchChange

/-- One step of a plan. Ids name entities of the model or references that earlier steps
declared. -/
inductive Action where
  | createElement (type name : String) (refId documentation : Option String)
  | renameElement (id name : String)
  | deleteElement (id : String)
  | setProperty (id key value : String)
  | removeProperty (id key : String)
  | setDocumentation (id documentation : String)
  | createRelationship (type sourceId targetId : String) (name : Option String)
  | deleteRelationship (id : String)
  | createView (name : String) (refId : Option String)
  | addToView (viewId elementId : String) (x y width height : Option Int)
  | moveToFolder (id folderPath : String)
deriving DecidableEq, Repr

/-- The operation of an action. -/
def Action.op : Action → OpKind
  | createElement .. => .createElement
  | renameElement .. => .renameElement
  | deleteElement .. => .deleteElement
  | setProperty .. => .setProperty
  | removeProperty .. => .removeProperty
  | setDocumentation .. => .setDocumentation
  | createRelationship .. => .createRelationship
  | deleteRelationship .. => .deleteRelationship
  | createView .. => .createView
  | addToView .. => .addToView
  | moveToFolder .. => .moveToFolder

structure ChangePlan where
  schemaVersion : SchemaVersion
  status : PlanStatus
  summary : String
  questions : List String
  actions : List Action
deriving DecidableEq, Repr

end ArchChange
