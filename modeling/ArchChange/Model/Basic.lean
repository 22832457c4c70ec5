import ArchChange.Model.Properties
import ArchChange.Vocabulary.ElementType
import ArchChange.Vocabulary.RelationshipType
/-!
Architecture models: elements, relationships between them, views that show them, and a tree of
folders that files them. Reading a model never fails; several entities may even share an id, and
then the first one counts.
-/
namespace ArchChange

structure Element where
  id : String
  type : ElementType
  name : String
  documentation : String
  properties : Properties
deriving DecidableEq

/-- A relationship joins elements or other relationships. -/
structure Relationship where
  id : String
  type : RelationshipType
  name : String
  source : String
  target : String
  documentation : String
  properties : Properties
deriving DecidableEq

/-- Where something is drawn on a view. -/
structure Bounds where
  x : Int
  y : Int
  width : Int
  height : Int
deriving DecidableEq, Repr

/-- An element placed on a view. -/
structure Visual where
  id : String
  entityId : String
  bounds : Bounds
deriving DecidableEq, Repr

/-- A relationship drawn between two visuals of a view. -/
structure Connection where
  id : String
  relationshipId : String
  sourceVisual : String
  targetVisual : String
deriving DecidableEq, Repr

structure View where
  id : String
  name : String
  documentation : String
  properties : Properties
  children : List Visual
  connections : List Connection
deriving DecidableEq

/-- A folder lists the ids of the entities filed in it. -/
structure Folder where
  id : String
  name : String
  folders : List Folder
  members : List String

structure Model where
  name : String
  elements : List Element
  relationships : List Relationship
  views : List View
  folders : List Folder
  /-- The number in the id that was allocated last. -/
  nextId : Nat

/-- What an id stands for. -/
inductive EntityKind where
  | element (type : ElementType)
  | relationship (type : RelationshipType)
  | view
deriving DecidableEq, Repr

namespace EntityKind

def label : EntityKind → String
  | element type => type.label
  | relationship _ => "Relationship"
  | view => "View"

end EntityKind

/-- What is known of an entity whatever its kind. -/
structure Entity where
  id : String
  name : String
  kind : EntityKind
deriving DecidableEq, Repr

/-- How an entity is shown to people. -/
def Entity.render (e : Entity) : String :=
  match e.kind with
  | .relationship type => s!"{type.label} relationship '{e.id}'"
  | kind => s!"\"{e.name}\" [{kind.label}]"

/-- A folder without what it holds. -/
structure FolderRef where
  id : String
  name : String
deriving DecidableEq, Repr

def Folder.ref (f : Folder) : FolderRef :=
  ⟨f.id, f.name⟩

namespace Model

def element? (m : Model) (id : String) : Option Element :=
  m.elements.find? fun e => e.id == id

def relationship? (m : Model) (id : String) : Option Relationship :=
  m.relationships.find? fun r => r.id == id

def view? (m : Model) (id : String) : Option View :=
  m.views.find? fun v => v.id == id

/-- The entity with an id: an element, else a relationship, else a view. -/
def entity? (m : Model) (id : String) : Option Entity :=
  match m.element? id with
  | some e => some ⟨e.id, e.name, .element e.type⟩
  | none =>
    match m.relationship? id with
    | some r => some ⟨r.id, r.name, .relationship r.type⟩
    | none => (m.view? id).map fun v => ⟨v.id, v.name, .view⟩

/-- The properties of the entity with an id. -/
def properties? (m : Model) (id : String) : Option Properties :=
  match m.element? id with
  | some e => some e.properties
  | none =>
    match m.relationship? id with
    | some r => some r.properties
    | none => (m.view? id).map View.properties

def property? (m : Model) (id key : String) : Option String :=
  (m.properties? id).bind fun p => p.get? key

/-- The ids of the relationships whose source or target is `id`. -/
def attached (m : Model) (id : String) : List String :=
  (m.relationships.filter fun r => r.source == id || r.target == id).map Relationship.id

/-- The folders at the top of a new model. -/
def standardFolders : List Folder :=
  [("folder-strategy", "Strategy"), ("folder-business", "Business"),
   ("folder-application", "Application"), ("folder-technology", "Technology & Physical"),
   ("folder-motivation", "Motivation"),
   ("folder-implementation", "Implementation & Migration"), ("folder-other", "Other"),
   ("folder-relations", "Relations"), ("folder-views", "Views")].map
    fun f => ⟨f.1, f.2, [], []⟩

/-- A model without content. -/
def new (name : String) : Model :=
  ⟨name, [], [], [], standardFolders, 0⟩

end Model

end ArchChange
