/-!
Why a store refuses a change.
-/
namespace ArchChange

/-- The kinds of entities, without their types. -/
inductive EntityClass where
  | element
  | relationship
  | view
deriving DecidableEq, Repr

def EntityClass.noun : EntityClass → String
  | element => "element"
  | relationship => "relationship"
  | view => "view"

/-- What a place in a model can hold. -/
inductive Role where
  /-- Something placed on a view: an element. -/
  | placed
  /-- An end of a relationship: an element or a relationship. -/
  | endpoint
deriving DecidableEq, Repr

def Role.noun : Role → String
  | placed => "element"
  | endpoint => "element or relationship"

inductive StoreError where
  | notFound (id : String)
  | viewNotFound (id : String)
  | folderNotFound (id : String)
  | visualNotOnView (view visual : String)
  | wrongKind (id : String) (expected : Role) (actual : EntityClass)
  | stillConnected (id : String) (count : Nat)
deriving DecidableEq, Repr

def StoreError.message : StoreError → String
  | notFound id => s!"entity not found: {id}"
  | viewNotFound id => s!"view not found: {id}"
  | folderNotFound id => s!"folder not found: {id}"
  | visualNotOnView view visual => s!"visual object {visual} is not on view {view}"
  | wrongKind id expected actual => s!"{id} is a {actual.noun}, expected {expected.noun}"
  | stillConnected id count => s!"cannot delete {id}: {count} relationship(s) still attached"

end ArchChange
