import ArchChange.Json.Reader
import ArchChange.Json.Record
import ArchChange.Model.Basic
/-!
Models as JSON values. Written models leave out empty documentation, empty properties and empty
names of relationships; reading takes these, and all lists, as empty when they are not there.
-/
namespace ArchChange

/-- A field that is left out when its text is empty. -/
def optionalText (name text : String) : List (String × Json) :=
  if text.isEmpty then [] else [(name, .str text)]

namespace Properties

/-- The field for the properties of an entity, left out when there are none. -/
def field (p : Properties) : List (String × Json) :=
  if p.isEmpty then []
  else [("properties", .obj (p.entries.map fun e => (e.1, .str e.2)))]

def entry? (field : String × Json) : Option (String × String) :=
  field.2.text?.map fun text => (field.1, text)

def ofJson? (v : Json) : Option Properties := do
  some (ofList (← (← v.fields?).mapM entry?))

end Properties

namespace Element

def toJson (e : Element) : Json :=
  .obj ([("id", .str e.id), ("type", .str e.type.id), ("name", .str e.name)] ++
    optionalText "documentation" e.documentation ++ e.properties.field)

def ofJson? (v : Json) : Option Element := do
  let fields ← v.record? ["id", "type", "name", "documentation", "properties"]
  some {
    id := ← Json.required? fields "id" Json.text?
    type := ← Json.required? fields "type" fun v => v.name?.bind ElementType.ofId?
    name := ← Json.required? fields "name" Json.text?
    documentation := ← Json.defaulted? fields "documentation" "" Json.text?
    properties := ← Json.defaulted? fields "properties" .empty Properties.ofJson?
  }

end Element

namespace Relationship

def toJson (r : Relationship) : Json :=
  .obj ([("id", .str r.id), ("type", .str r.type.word)] ++ optionalText "name" r.name ++
    [("source", .str r.source), ("target", .str r.target)] ++
    optionalText "documentation" r.documentation ++ r.properties.field)

def ofJson? (v : Json) : Option Relationship := do
  let fields ← v.record?
    ["id", "type", "name", "source", "target", "documentation", "properties"]
  some {
    id := ← Json.required? fields "id" Json.text?
    type := ← Json.required? fields "type" fun v => v.name?.bind RelationshipType.ofWord?
    name := ← Json.defaulted? fields "name" "" Json.text?
    source := ← Json.required? fields "source" Json.text?
    target := ← Json.required? fields "target" Json.text?
    documentation := ← Json.defaulted? fields "documentation" "" Json.text?
    properties := ← Json.defaulted? fields "properties" .empty Properties.ofJson?
  }

end Relationship

namespace Bounds

def toJson (b : Bounds) : Json :=
  .obj [("x", .int b.x), ("y", .int b.y), ("width", .int b.width), ("height", .int b.height)]

def ofJson? (v : Json) : Option Bounds := do
  let fields ← v.record? ["x", "y", "width", "height"]
  some {
    x := ← Json.required? fields "x" Json.int64?
    y := ← Json.required? fields "y" Json.int64?
    width := ← Json.required? fields "width" Json.int64?
    height := ← Json.required? fields "height" Json.int64?
  }

end Bounds

namespace Visual

def toJson (v : Visual) : Json :=
  .obj [("id", .str v.id), ("entity_id", .str v.entityId), ("bounds", v.bounds.toJson)]

def ofJson? (v : Json) : Option Visual := do
  let fields ← v.record? ["id", "entity_id", "bounds"]
  some {
    id := ← Json.required? fields "id" Json.text?
    entityId := ← Json.required? fields "entity_id" Json.text?
    bounds := ← Json.required? fields "bounds" Bounds.ofJson?
  }

end Visual

namespace Connection

def toJson (c : Connection) : Json :=
  .obj [("id", .str c.id), ("relationship_id", .str c.relationshipId),
    ("source_visual", .str c.sourceVisual), ("target_visual", .str c.targetVisual)]

def ofJson? (v : Json) : Option Connection := do
  let fields ← v.record? ["id", "relationship_id", "source_visual", "target_visual"]
  some {
    id := ← Json.required? fields "id" Json.text?
    relationshipId := ← Json.required? fields "relationship_id" Json.text?
    sourceVisual := ← Json.required? fields "source_visual" Json.text?
    targetVisual := ← Json.required? fields "target_visual" Json.text?
  }

end Connection

namespace View

def toJson (v : View) : Json :=
  .obj ([("id", .str v.id), ("name", .str v.name)] ++
    optionalText "documentation" v.documentation ++ v.properties.field ++
    [("children", .arr (v.children.map Visual.toJson)),
     ("connections", .arr (v.connections.map Connection.toJson))])

def ofJson? (v : Json) : Option View := do
  let fields ← v.record?
    ["id", "name", "documentation", "properties", "children", "connections"]
  some {
    id := ← Json.required? fields "id" Json.text?
    name := ← Json.required? fields "name" Json.text?
    documentation := ← Json.defaulted? fields "documentation" "" Json.text?
    properties := ← Json.defaulted? fields "properties" .empty Properties.ofJson?
    children := ← Json.defaulted? fields "children" [] (Json.list? Visual.ofJson?)
    connections := ← Json.defaulted? fields "connections" [] (Json.list? Connection.ofJson?)
  }

end View

namespace Folder

mutual

def toJson : Folder → Json
  | ⟨id, name, folders, members⟩ =>
    .obj [("id", .str id), ("name", .str name), ("folders", .arr (toJsonItems folders)),
      ("members", .strings members)]
termination_by structural f => f

def toJsonItems : List Folder → List Json
  | [] => []
  | f :: fs => toJson f :: toJsonItems fs
termination_by structural fs => fs

end

/-- The folder with the given fields and the folders inside it. -/
def ofFields? (fields : List (String × Json)) (folders : List Folder) : Option Folder := do
  some {
    id := ← Json.required? fields "id" Json.text?
    name := ← Json.required? fields "name" Json.text?
    folders
    members := ← Json.defaulted? fields "members" [] (Json.list? Json.text?)
  }

mutual

def ofJson? : Json → Option Folder
  | .obj fields => do ofFields? fields (← inField? fields)
  | .arr [id, name] => ofFields? [("id", id), ("name", name)] []
  | .arr [id, name, folders] => do
    ofFields? [("id", id), ("name", name)] (← ofList? folders)
  | .arr [id, name, folders, members] => do
    ofFields? [("id", id), ("name", name), ("members", members)] (← ofList? folders)
  | _ => none
termination_by structural v => v

/-- The folders inside a folder with the given fields. -/
def inField? : List (String × Json) → Option (List Folder)
  | [] => some []
  | (key, v) :: fields => if key = "folders" then ofList? v else inField? fields
termination_by structural fields => fields

def ofList? : Json → Option (List Folder)
  | .arr items => ofItems? items
  | _ => none
termination_by structural v => v

def ofItems? : List Json → Option (List Folder)
  | [] => some []
  | v :: vs => do some ((← ofJson? v) :: (← ofItems? vs))
termination_by structural vs => vs

end

end Folder

namespace Model

def toJson (m : Model) : Json :=
  .obj [
    ("name", .str m.name),
    ("elements", .arr (m.elements.map Element.toJson)),
    ("relationships", .arr (m.relationships.map Relationship.toJson)),
    ("views", .arr (m.views.map View.toJson)),
    ("folders", .arr (Folder.toJsonItems m.folders)),
    ("next_id", .nat m.nextId)]

def ofJson? (v : Json) : Option Model := do
  let fields ← v.record? ["name", "elements", "relationships", "views", "folders", "next_id"]
  some {
    name := ← Json.defaulted? fields "name" "" Json.text?
    elements := ← Json.defaulted? fields "elements" [] (Json.list? Element.ofJson?)
    relationships :=
      ← Json.defaulted? fields "relationships" [] (Json.list? Relationship.ofJson?)
    views := ← Json.defaulted? fields "views" [] (Json.list? View.ofJson?)
    folders := ← Json.defaulted? fields "folders" [] Folder.ofList?
    nextId := ← Json.defaulted? fields "next_id" 0 Json.nat64?
  }

end Model

end ArchChange
