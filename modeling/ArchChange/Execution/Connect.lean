import ArchChange.Execution.Error
import ArchChange.Model.Store
/-!
Drawing relationships on views. Every relationship whose ends are both on a view and which is not
drawn there gets a connection between the first visuals of its ends.
-/
namespace ArchChange.Execution

/-- What drawing on some views has come to. -/
structure ConnectReport where
  /-- The connections added, also those on views that failed afterwards. -/
  added : Nat
  failures : List ConnectFailure
deriving DecidableEq, Repr

/-- The first visual of an entity. -/
def visualOf? (children : List Visual) (entity : String) : Option String :=
  (children.find? fun c => c.entityId == entity).map Visual.id

section

variable {σ : Type} [Store σ]

/-- Draws relationships on a view until one fails; counts those drawn. -/
def connectAll (view : String) (children : List Visual) (drawn : List String) (added : Nat) :
    List Relationship → σ → (Nat × Option ConnectFailure) × σ
  | [], store => ((added, none), store)
  | r :: rs, store =>
    if drawn.contains r.id then connectAll view children drawn added rs store
    else
      match visualOf? children r.source, visualOf? children r.target with
      | some source, some target =>
        match Store.connectInView view r.id source target store with
        | (.error error, store) => ((added, some ⟨view, .connect r.id, error⟩), store)
        | (.ok _, store) => connectAll view children drawn (added + 1) rs store
      | _, _ => connectAll view children drawn added rs store

/-- Draws relationships on a view. -/
def connectView (view : String) (relationships : List Relationship) (store : σ) :
    (Nat × Option ConnectFailure) × σ :=
  match Store.viewChildren view store with
  | (.error error, store) => ((0, some ⟨view, .listVisuals, error⟩), store)
  | (.ok children, store) =>
    match Store.viewConnections view store with
    | (.error error, store) => ((0, some ⟨view, .listConnections, error⟩), store)
    | (.ok connections, store) =>
      connectAll view children (connections.map Connection.relationshipId) 0 relationships store

/-- Draws relationships on views; a view that fails does not keep the others from being
finished. -/
def connectViews (relationships : List Relationship) (report : ConnectReport) :
    List String → σ → ConnectReport × σ
  | [], store => (report, store)
  | view :: views, store =>
    let ((added, failure), store) := connectView view relationships store
    connectViews relationships
      ⟨report.added + added, report.failures ++ failure.toList⟩ views store

/-- A set of ids in ascending order. -/
def idSet (ids : List String) : List String :=
  (Keyed.ofList (ids.map fun id => (id, ()))).map Prod.fst

/-- Draws the relationships of a store on a set of its views. -/
def autoConnect (views : List String) (store : σ) : ConnectReport × σ :=
  connectViews (Store.relationships store) ⟨0, []⟩ (idSet views) store

end

end ArchChange.Execution
