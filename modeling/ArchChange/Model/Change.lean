import ArchChange.Model.Error
import ArchChange.Model.Ids
/-!
The changes of a model. Each yields its result or the reason why it is refused, and the model
afterwards. The checks come before the first effect, but for a new folder, which takes its number
first, and for a view that is drawn on, which is looked up a second time when the number is taken.
-/
namespace ArchChange

/-- Changes the first item that fulfils `p`. -/
def modifyFirst {α : Type} (p : α → Bool) (change : α → α) : List α → List α
  | [] => []
  | a :: as => if p a then change a :: as else a :: modifyFirst p change as

namespace View

/-- The view without the visuals of an element and the connections that touch them. -/
def withoutElement (id : String) (v : View) : View :=
  let removed := (v.children.filter fun c => c.entityId == id).map Visual.id
  { v with
    children := v.children.filter fun c => c.entityId != id
    connections := v.connections.filter fun c =>
      !removed.contains c.sourceVisual && !removed.contains c.targetVisual }

/-- The view without the connections that draw a relationship. -/
def withoutRelationship (id : String) (v : View) : View :=
  { v with connections := v.connections.filter fun c => c.relationshipId != id }

/-- The first of the given visuals that is not on a view. -/
def missing? (v : View) (visuals : List String) : Option String :=
  visuals.find? fun id => !v.children.any fun c => c.id == id

end View

namespace Model

/-- A change with a result that may be refused. -/
abbrev Change (α : Type) := Model → Except StoreError α × Model

def createElement (type : ElementType) (name : String) : Change String := fun m =>
  let (id, m) := m.allocate "element"
  (.ok id, { m with
    elements := m.elements ++ [⟨id, type, name, "", .empty⟩]
    folders := Folder.fileIn (Folder.idFor type) id m.folders })

/-- Why an id cannot be an end of a relationship. -/
def endpointError? (m : Model) (id : String) : Option StoreError :=
  match m.entity? id with
  | none => some (.notFound id)
  | some e => if e.kind = .view then some (.wrongKind id .endpoint .view) else none

def createRelationship (type : RelationshipType) (source target name : String) :
    Change String := fun m =>
  match (m.endpointError? source).orElse fun _ => m.endpointError? target with
  | some error => (.error error, m)
  | none =>
    let (id, m) := m.allocate "relationship"
    (.ok id, { m with
      relationships := m.relationships ++ [⟨id, type, name, source, target, "", .empty⟩]
      folders := Folder.fileIn Folder.idForRelationships id m.folders })

/-- Changes the entity with an id: the first such element, else relationship, else view. -/
def modifyEntity (id : String) (element : Element → Element)
    (relationship : Relationship → Relationship) (view : View → View) : Change Unit := fun m =>
  if (m.element? id).isSome then
    (.ok (), { m with elements := modifyFirst (fun e => e.id == id) element m.elements })
  else if (m.relationship? id).isSome then
    (.ok (), { m with
      relationships := modifyFirst (fun r => r.id == id) relationship m.relationships })
  else if (m.view? id).isSome then
    (.ok (), { m with views := modifyFirst (fun v => v.id == id) view m.views })
  else (.error (.notFound id), m)

def rename (id name : String) : Change Unit :=
  modifyEntity id ({ · with name }) ({ · with name }) ({ · with name })

def setDocumentation (id documentation : String) : Change Unit :=
  modifyEntity id ({ · with documentation }) ({ · with documentation })
    ({ · with documentation })

def modifyProperties (id : String) (change : Properties → Properties) : Change Unit :=
  modifyEntity id (fun e => { e with properties := change e.properties })
    (fun r => { r with properties := change r.properties })
    (fun v => { v with properties := change v.properties })

def setProperty (id key value : String) : Change Unit :=
  modifyProperties id fun p => p.insert key value

/-- Takes a property away and says whether it was there. -/
def removeProperty (id key : String) : Change Bool := fun m =>
  match modifyProperties id (fun p => p.erase key) m with
  | (.error error, m') => (.error error, m')
  | (.ok (), m') => (.ok (m.property? id key).isSome, m')

/-- The model without the entities of a kind that have the given id, and without what shows
them. -/
def without (m : Model) (id : String) : EntityKind → Model
  | .element _ => { m with
      elements := m.elements.filter fun e => e.id != id
      views := m.views.map (View.withoutElement id) }
  | .relationship _ => { m with
      relationships := m.relationships.filter fun r => r.id != id
      views := m.views.map (View.withoutRelationship id) }
  | .view => { m with views := m.views.filter fun v => v.id != id }

/-- Deletes an entity that no relationship is attached to. -/
def delete (id : String) : Change Unit := fun m =>
  match m.entity? id with
  | none => (.error (.notFound id), m)
  | some e =>
    match (m.attached id).length with
    | 0 =>
      let m := m.without id e.kind
      (.ok (), { m with folders := Folder.removeIn id m.folders })
    | count => (.error (.stillConnected id count), m)

def createView (name : String) : Change String := fun m =>
  let (id, m) := m.allocate "view"
  (.ok id, { m with
    views := m.views ++ [⟨id, name, "", .empty, [], []⟩]
    folders := Folder.fileIn Folder.idForViews id m.folders })

/-- Why an id cannot be placed on a view. -/
def placedError? (m : Model) (id : String) : Option StoreError :=
  match m.entity? id with
  | none => some (.notFound id)
  | some e =>
    match e.kind with
    | .element _ => none
    | .relationship _ => some (.wrongKind id .placed .relationship)
    | .view => some (.wrongKind id .placed .view)

/-- Changes the first view with an id. -/
def modifyView (m : Model) (id : String) (change : View → View) : Model :=
  { m with views := modifyFirst (fun v => v.id == id) change m.views }

/-- Adds something that has an id already to a view, unless there is no such view; the result is
that id. -/
def addedToView (id view : String) (add : View → View) : Change String := fun m =>
  if (m.view? view).isNone then (.error (.viewNotFound view), m)
  else (.ok id, m.modifyView view add)

/-- Places an element on a view; the result is the id of its visual. -/
def addToView (view entity : String) (bounds : Bounds) : Change String := fun m =>
  match m.placedError? entity with
  | some error => (.error error, m)
  | none =>
    if (m.view? view).isNone then (.error (.viewNotFound view), m)
    else
      let (id, m) := m.allocate "visual"
      m.addedToView id view fun v => { v with children := v.children ++ [⟨id, entity, bounds⟩] }

/-- Draws a relationship between two visuals of a view; the result is the id of the
connection. -/
def connectInView (view relationship source target : String) : Change String := fun m =>
  if (m.relationship? relationship).isNone then (.error (.notFound relationship), m)
  else
    match m.view? view with
    | none => (.error (.viewNotFound view), m)
    | some v =>
      match v.missing? [source, target] with
      | some visual => (.error (.visualNotOnView view visual), m)
      | none =>
        let (id, m) := m.allocate "connection"
        m.addedToView id view fun v =>
          { v with connections := v.connections ++ [⟨id, relationship, source, target⟩] }

/-- Moves an entity to the end of a folder, out of all others. -/
def moveToFolder (folder entity : String) : Change Unit := fun m =>
  if (m.entity? entity).isNone then (.error (.notFound entity), m)
  else if (Folder.findIn? folder m.folders).isNone then (.error (.folderNotFound folder), m)
  else (.ok (), { m with
    folders := Folder.fileIn folder entity (Folder.removeIn entity m.folders) })

/-- Adds a folder inside another one. Its number is used up even if that one is missing. -/
def addFolder (parent name : String) : Change String := fun m =>
  let (id, m) := m.allocate "folder"
  match Folder.modifyIn? parent (Folder.addFolder ⟨id, name, [], []⟩) m.folders with
  | none => (.error (.folderNotFound parent), m)
  | some folders => (.ok id, { m with folders })

/-- The visuals on a view. -/
def viewChildren (m : Model) (view : String) : Except StoreError (List Visual) :=
  match m.view? view with
  | none => .error (.viewNotFound view)
  | some v => .ok v.children

/-- The connections on a view. -/
def viewConnections (m : Model) (view : String) : Except StoreError (List Connection) :=
  match m.view? view with
  | none => .error (.viewNotFound view)
  | some v => .ok v.connections

def topFolders (m : Model) : List FolderRef :=
  m.folders.map Folder.ref

/-- The folders inside a folder. -/
def childFolders (m : Model) (folder : String) : Except StoreError (List FolderRef) :=
  match Folder.findIn? folder m.folders with
  | none => .error (.folderNotFound folder)
  | some f => .ok (f.folders.map Folder.ref)

/-- The id of the folder that lists an entity. -/
def folderOf? (m : Model) (entity : String) : Option String :=
  Folder.holderIn? entity m.folders

end Model

end ArchChange
