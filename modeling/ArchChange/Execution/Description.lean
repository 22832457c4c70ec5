import ArchChange.Model.Basic
/-!
What is said about an action: what it would do, or what it did.
-/
namespace ArchChange.Execution

/-- How an id is shown before anything has been done. -/
inductive Shown where
  | newElement (name : String) (type : ElementType) (ref : String)
  | newView (name ref : String)
  | live (entity : Entity)
  | unknown (id : String)
deriving DecidableEq, Repr

def Shown.render : Shown → String
  | newElement name type ref => s!"\"{name}\" [{type.label}] (new, ref {ref})"
  | newView name ref => s!"view \"{name}\" (new, ref {ref})"
  | live entity => entity.render
  | unknown id => s!"'{id}'"

/-- Bounds in words. -/
def renderBounds (b : Bounds) : String :=
  s!"at ({b.x}, {b.y}) size {b.width}x{b.height}"

/-- What an action would do. -/
inductive Announcement where
  | createElement (type : ElementType) (name : String)
  | rename (target : Shown) (name : String)
  | deleteElement (target : Shown) (attached : Nat)
  | setProperty (key value : String) (target : Shown)
  | removeProperty (key : String) (target : Shown)
  | setDocumentation (target : Shown)
  | createRelationship (type : RelationshipType) (source target : Shown)
  | deleteRelationship (target : Shown)
  | createView (name : String)
  | place (entity view : Shown) (bounds : Bounds)
  | move (target : Shown) (path : String)
deriving DecidableEq, Repr

def Announcement.render : Announcement → String
  | createElement type name => s!"Create {type.label} \"{name}\""
  | rename target name => s!"Rename {target.render} to \"{name}\""
  | deleteElement target 0 => s!"Delete {target.render}"
  | deleteElement target attached =>
    s!"Delete {target.render} and {attached} attached relationship(s)"
  | setProperty key value target => s!"Set {key} = \"{value}\" on {target.render}"
  | removeProperty key target => s!"Remove {key} from {target.render}"
  | setDocumentation target => s!"Set documentation on {target.render}"
  | createRelationship type source target =>
    s!"Create {type.label} relationship from {source.render} to {target.render}"
  | deleteRelationship target => s!"Delete {target.render}"
  | createView name => s!"Create view \"{name}\""
  | place entity view bounds =>
    s!"Add {entity.render} to {view.render} {renderBounds bounds}"
  | move target path => s!"Move {target.render} to folder {path}"

/-- What an action did. -/
inductive Effect where
  | elementCreated (type : ElementType) (name : String)
  | renamed (target name : String)
  | deleted (target : String) (attached : Nat)
  | propertySet (key value target : String)
  | propertyRemoved (key target : String)
  | propertyNotSet (key target : String)
  | documentationSet (target : String)
  | relationshipCreated (type : RelationshipType) (source target : String)
  | relationshipDeleted (id : String)
  | viewCreated (name : String)
  | placed (entity view : String) (bounds : Bounds)
  | moved (target path : String)
deriving DecidableEq, Repr

def Effect.render : Effect → String
  | elementCreated type name => s!"Created {type.label} \"{name}\""
  | renamed target name => s!"Renamed {target} to \"{name}\""
  | deleted target attached => s!"Deleted {target} and {attached} attached relationship(s)"
  | propertySet key value target => s!"Set {key} = \"{value}\" on {target}"
  | propertyRemoved key target => s!"Removed {key} from {target}"
  | propertyNotSet key target => s!"{key} was not set on {target}"
  | documentationSet target => s!"Set documentation on {target}"
  | relationshipCreated type source target =>
    s!"Created {type.label} relationship {source} -> {target}"
  | relationshipDeleted id => s!"Deleted relationship {id}"
  | viewCreated name => s!"Created view \"{name}\""
  | placed entity view bounds => s!"Added {entity} to {view} {renderBounds bounds}"
  | moved target path => s!"Moved {target} to {path}"

/-- A description of either kind. -/
inductive Description where
  | announced (announcement : Announcement)
  | done (effect : Effect)
deriving DecidableEq, Repr

def Description.render : Description → String
  | announced announcement => announcement.render
  | done effect => effect.render

end ArchChange.Execution
