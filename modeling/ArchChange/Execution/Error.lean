import ArchChange.Model.Basic
import ArchChange.Model.Error
/-!
Why an action or the drawing of a view's connections fails.
-/
namespace ArchChange.Execution

inductive ActionError where
  | unknownElementType (label : String)
  | unknownRelationshipType (label : String)
  | notFound (id : String)
  | sourceNotFound (id : String)
  | targetNotFound (id : String)
  | relationshipNotFound (id : String)
  | notARelationship (id : String) (kind : EntityKind)
  | viewNotFound (id : String)
  | notAView (entity : Entity)
  | emptyFolderPath (path : String)
  | topFolderNotFound (name : String)
  | folderNotFound (name parent : String)
  /-- The store refused a change. -/
  | store (error : StoreError)
  /-- The store refused the documentation of an element just created. -/
  | documenting (error : StoreError)
  /-- The store refused to delete a relationship attached to what is being deleted. -/
  | deletingAttached (relationship : String) (error : StoreError)
deriving DecidableEq, Repr

def ActionError.message : ActionError → String
  | unknownElementType label => s!"unknown element type '{label}'"
  | unknownRelationshipType label => s!"unknown relationship type '{label}'"
  | notFound id => s!"'{id}' not found"
  | sourceNotFound id => s!"source '{id}' not found"
  | targetNotFound id => s!"target '{id}' not found"
  | relationshipNotFound id => s!"relationship '{id}' not found"
  | notARelationship id kind => s!"'{id}' is not a relationship ({kind.label})"
  | viewNotFound id => s!"view '{id}' not found"
  | notAView entity => s!"{entity.render} is not a view"
  | emptyFolderPath path => s!"folder path '{path}' is empty"
  | topFolderNotFound name => s!"top-level folder '{name}' not found"
  | folderNotFound name parent => s!"folder '{name}' not found under '{parent}'"
  | store error => error.message
  | documenting error => s!"set documentation on new element: {error.message}"
  | deletingAttached relationship error =>
    s!"delete attached relationship {relationship}: {error.message}"

/-- What was being done when the drawing of connections on a view failed. -/
inductive ConnectStage where
  | listVisuals
  | listConnections
  | connect (relationship : String)
deriving DecidableEq, Repr

/-- A view whose connections could not all be drawn. -/
structure ConnectFailure where
  view : String
  stage : ConnectStage
  error : StoreError
deriving DecidableEq, Repr

def ConnectFailure.message (f : ConnectFailure) : String :=
  match f.stage with
  | .listVisuals => s!"list visuals on view {f.view}: {f.error.message}"
  | .listConnections => s!"list connections on view {f.view}: {f.error.message}"
  | .connect relationship => s!"connect {relationship} on view {f.view}: {f.error.message}"

end ArchChange.Execution
