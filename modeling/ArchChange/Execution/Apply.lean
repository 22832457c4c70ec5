import ArchChange.Compatibility
import ArchChange.Execution.Grid
import ArchChange.Execution.Result
import ArchChange.Model.Store
import ArchChange.Plan.Action
/-!
Making the actions of a plan. An action is a step on a run: it may fail, and then the run goes on
with whatever the step has changed before.
-/
namespace ArchChange.Execution

/-- A run in progress: the store, and what the actions so far have created. -/
structure Run (σ : Type) where
  store : σ
  /-- The references to new elements with their ids; latest first. -/
  elementRefs : List (String × String)
  /-- The references to new views with their ids; latest first. -/
  viewRefs : List (String × String)
  grid : Grid
  /-- The views that something was placed on. -/
  touched : List String

def Run.start {σ : Type} (store : σ) : Run σ :=
  ⟨store, [], [], .empty, []⟩

/-- A part of an action: it reads and changes the run, and may fail. -/
abbrev Step (σ α : Type) := ExceptT ActionError (StateM (Run σ)) α

/-- What an action that succeeds reports. -/
structure Done where
  effect : Effect
  createdId : Option String
deriving DecidableEq, Repr

namespace Step

variable {σ : Type} [Store σ]

/-- A call of the store. -/
def call {α : Type} (wrap : StoreError → ActionError)
    (operation : σ → Except StoreError α × σ) : Step σ α :=
  ExceptT.mk fun run =>
    let (result, store) := operation run.store
    (result.mapError wrap, { run with store })

/-- The entity of the live model with an id. -/
def entity? (id : String) : Step σ (Option Entity) := do
  return EntityLookup.entity? (← get).store id

/-- The live id that an id stands for: references come first. -/
def resolve? (id : String) : Step σ (Option String) := do
  let run ← get
  match (run.elementRefs.lookup id).orElse fun _ => run.viewRefs.lookup id with
  | some created => return some created
  | none => return (← entity? id).map Entity.id

def resolve (id : String) (missing : String → ActionError) : Step σ String := do
  match ← resolve? id with
  | some live => return live
  | none => throw (missing id)

/-- The live id of a view. -/
def resolveView (id : String) : Step σ String := do
  match (← get).viewRefs.lookup id with
  | some created => return created
  | none =>
    match ← entity? id with
    | none => throw (.viewNotFound id)
    | some e => if e.kind = .view then return e.id else throw (.notAView e)

def declareElement (id : String) : Option String → Step σ Unit
  | none => return
  | some ref => modify fun run => { run with elementRefs := (ref, id) :: run.elementRefs }

def declareView (id : String) : Option String → Step σ Unit
  | none => return
  | some ref => modify fun run => { run with viewRefs := (ref, id) :: run.viewRefs }

/-- Documents a new element unless the text is empty. -/
def document (id : String) : Option String → Step σ Unit
  | none => return
  | some text => do
    unless text.isEmpty do
      call .documenting (Store.setDocumentation id text)

/-- Deletes relationships in order. -/
def deleteAttached : List String → Step σ Unit
  | [] => return
  | r :: rs => do
    call (.deletingAttached r) (Store.delete r)
    deleteAttached rs

/-- The names in a path: the pieces between slashes, without blanks around them and without
empty ones. -/
def segments (path : String) : List String :=
  (((Text.pieces '/' path.toList).map Text.trim).filter fun s => !s.isEmpty).map String.ofList

/-- Goes down from a folder along the names of folders. -/
def descend (folder : FolderRef) : List String → Step σ FolderRef
  | [] => return folder
  | name :: names => do
    let children ← call .store (Store.childFolders folder.id)
    match children.find? fun f => f.name == name with
    | none => throw (.folderNotFound name folder.name)
    | some child => descend child names

/-- The id of the folder at a path. The name of the folder at the top may differ in letter
case. -/
def folderAt (path : String) : Step σ String := do
  match segments path with
  | [] => throw (.emptyFolderPath path)
  | name :: names =>
    match (Store.topFolders (← get).store).find? fun f => Text.sameLetters f.name name with
    | none => throw (.topFolderNotFound name)
    | some folder => return (← descend folder names).id

/-- Places an element on a view and takes the slot if it needed one. -/
def place (view element : String) (request : PlaceRequest) : Step σ Done := do
  let (bounds, placement) := (← get).grid.boundsFor view request
  let visual ← call .store (Store.addToView view element bounds)
  modify fun run => { run with
    grid := run.grid.commit view placement
    touched := run.touched ++ [view] }
  return ⟨.placed element view bounds, some visual⟩

end Step

open Step in
/-- Makes an action. -/
def applyAction {σ : Type} [Store σ] (oracle : Oracle) : Action → Step σ Done
  | .createElement label name ref documentation => do
    match oracle.elementType? label with
    | none => throw (.unknownElementType label)
    | some type =>
      let id ← call .store (Store.createElement type name)
      document id documentation
      declareElement id ref
      return ⟨.elementCreated type name, some id⟩
  | .renameElement id name => do
    let target ← resolve id .notFound
    call .store (Store.rename target name)
    return ⟨.renamed target name, none⟩
  | .deleteElement id => do
    let target ← resolve id .notFound
    let attached := EntityLookup.cascade (← get).store target
    deleteAttached attached
    call .store (Store.delete target)
    return ⟨.deleted target attached.length, none⟩
  | .setProperty id key value => do
    let target ← resolve id .notFound
    call .store (Store.setProperty target key value)
    return ⟨.propertySet key value target, none⟩
  | .removeProperty id key => do
    let target ← resolve id .notFound
    let removed ← call .store (Store.removeProperty target key)
    return ⟨if removed then .propertyRemoved key target else .propertyNotSet key target, none⟩
  | .setDocumentation id text => do
    let target ← resolve id .notFound
    call .store (Store.setDocumentation target text)
    return ⟨.documentationSet target, none⟩
  | .createRelationship label sourceId targetId name => do
    match oracle.relationshipType? label with
    | none => throw (.unknownRelationshipType label)
    | some type =>
      let source ← resolve sourceId .sourceNotFound
      let target ← resolve targetId .targetNotFound
      let id ← call .store (Store.createRelationship type source target (name.getD ""))
      return ⟨.relationshipCreated type source target, some id⟩
  | .deleteRelationship id => do
    match (← entity? id).map Entity.kind with
    | none => throw (.relationshipNotFound id)
    | some (.relationship _) =>
      call .store (Store.delete id)
      return ⟨.relationshipDeleted id, none⟩
    | some kind => throw (.notARelationship id kind)
  | .createView name ref => do
    let id ← call .store (Store.createView name)
    declareView id ref
    return ⟨.viewCreated name, some id⟩
  | .addToView viewId elementId x y width height => do
    let view ← resolveView viewId
    let element ← resolve elementId .notFound
    place view element ⟨x, y, width, height⟩
  | .moveToFolder id path => do
    let target ← resolve id .notFound
    let folder ← folderAt path
    call .store (Store.moveToFolder folder target)
    return ⟨.moved target path, none⟩

/-- The verdict on an action that was made. -/
def applyVerdict : Except ActionError Done → Verdict
  | .ok done => .applied (.done done.effect) done.createdId
  | .error error => .failed error

/-- Makes the actions numbered from `index` on. Once the run is halted they are skipped; with
`stopOnError` a failure halts it. -/
def applyAll {σ : Type} [Store σ] (oracle : Oracle) (stopOnError : Bool) (index : Nat)
    (halted : Bool) (run : Run σ) (result : Result) : List Action → Result × Run σ
  | [] => (result, run)
  | action :: actions =>
    if halted then
      applyAll oracle stopOnError (index + 1) true run
        (result.record ⟨index, action.op, .skipped⟩) actions
    else
      let (made, run) := (applyAction oracle action).run run
      let verdict := applyVerdict made
      applyAll oracle stopOnError (index + 1) (verdict.isFailed && stopOnError) run
        (result.record ⟨index, action.op, verdict⟩) actions

end ArchChange.Execution
