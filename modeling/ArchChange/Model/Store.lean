import ArchChange.Model.Cascade
import ArchChange.Model.Change
/-!
What the executor needs of a model, as a class, so that it can also run on a store whose calls
fail: `FaultyModel` wraps a model and refuses the calls that a schedule names.
-/
namespace ArchChange

/-- The part of a store that never fails and changes nothing. -/
class EntityLookup (σ : Type) where
  entity? : σ → String → Option Entity
  /-- The relationships to delete before an entity, in this order. -/
  cascade : σ → String → List String

/-- The operations of a store. Those that may fail also yield the store afterwards. -/
class Store (σ : Type) extends EntityLookup σ where
  relationships : σ → List Relationship
  topFolders : σ → List FolderRef
  createElement : ElementType → String → σ → Except StoreError String × σ
  createRelationship : RelationshipType → String → String → String → σ →
    Except StoreError String × σ
  rename : String → String → σ → Except StoreError Unit × σ
  setProperty : String → String → String → σ → Except StoreError Unit × σ
  removeProperty : String → String → σ → Except StoreError Bool × σ
  setDocumentation : String → String → σ → Except StoreError Unit × σ
  delete : String → σ → Except StoreError Unit × σ
  createView : String → σ → Except StoreError String × σ
  addToView : String → String → Bounds → σ → Except StoreError String × σ
  connectInView : String → String → String → String → σ → Except StoreError String × σ
  viewChildren : String → σ → Except StoreError (List Visual) × σ
  viewConnections : String → σ → Except StoreError (List Connection) × σ
  childFolders : String → σ → Except StoreError (List FolderRef) × σ
  moveToFolder : String → String → σ → Except StoreError Unit × σ

instance : EntityLookup Model where
  entity? := Model.entity?
  cascade := Model.cascade

instance : Store Model where
  relationships := Model.relationships
  topFolders := Model.topFolders
  createElement := Model.createElement
  createRelationship := Model.createRelationship
  rename := Model.rename
  setProperty := Model.setProperty
  removeProperty := Model.removeProperty
  setDocumentation := Model.setDocumentation
  delete := Model.delete
  createView := Model.createView
  addToView := Model.addToView
  connectInView := Model.connectInView
  viewChildren view m := (m.viewChildren view, m)
  viewConnections view m := (m.viewConnections view, m)
  childFolders folder m := (m.childFolders folder, m)
  moveToFolder := Model.moveToFolder

/-- The operations of a store that may fail. -/
inductive StoreCall where
  | createElement
  | createRelationship
  | rename
  | setProperty
  | removeProperty
  | setDocumentation
  | delete
  | createView
  | addToView
  | connectInView
  | viewChildren
  | viewConnections
  | childFolders
  | moveToFolder
deriving DecidableEq, Repr

/-- Which calls fail and why: the calls of one operation are numbered from one. -/
abbrev FaultSchedule := StoreCall → Nat → Option StoreError

/-- A model that refuses the calls that a schedule names and makes all others. -/
structure FaultyModel where
  model : Model
  schedule : FaultSchedule
  /-- How often each operation has been called. -/
  calls : StoreCall → Nat

namespace FaultyModel

/-- Counts a call, and makes it unless the schedule names it. -/
def attempt {α : Type} (call : StoreCall) (change : Model.Change α) (s : FaultyModel) :
    Except StoreError α × FaultyModel :=
  let n := s.calls call + 1
  let s := { s with calls := fun c => if c = call then n else s.calls c }
  match s.schedule call n with
  | some error => (.error error, s)
  | none =>
    let (result, model) := change s.model
    (result, { s with model })

instance : EntityLookup FaultyModel where
  entity? s := s.model.entity?
  cascade s := s.model.cascade

instance : Store FaultyModel where
  relationships s := s.model.relationships
  topFolders s := s.model.topFolders
  createElement type name := attempt .createElement (Model.createElement type name)
  createRelationship type source target name :=
    attempt .createRelationship (Model.createRelationship type source target name)
  rename id name := attempt .rename (Model.rename id name)
  setProperty id key value := attempt .setProperty (Model.setProperty id key value)
  removeProperty id key := attempt .removeProperty (Model.removeProperty id key)
  setDocumentation id text := attempt .setDocumentation (Model.setDocumentation id text)
  delete id := attempt .delete (Model.delete id)
  createView name := attempt .createView (Model.createView name)
  addToView view entity bounds := attempt .addToView (Model.addToView view entity bounds)
  connectInView view relationship source target :=
    attempt .connectInView (Model.connectInView view relationship source target)
  viewChildren view := attempt .viewChildren fun m => (m.viewChildren view, m)
  viewConnections view := attempt .viewConnections fun m => (m.viewConnections view, m)
  childFolders folder := attempt .childFolders fun m => (m.childFolders folder, m)
  moveToFolder folder entity := attempt .moveToFolder (Model.moveToFolder folder entity)

end FaultyModel

end ArchChange
