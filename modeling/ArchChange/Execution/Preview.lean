import ArchChange.Compatibility
import ArchChange.Execution.Grid
import ArchChange.Execution.Result
import ArchChange.Model.Store
import ArchChange.Plan.Action
/-!
Describing the actions of a plan without making them. References declared earlier in the plan are
shown by the names that their entities will have.
-/
namespace ArchChange.Execution

/-- What the actions described so far would have created. -/
structure PreviewState where
  /-- The references to new elements with their names and types; latest first. -/
  elementRefs : List (String × String × ElementType)
  /-- The references to new views with their names; latest first. -/
  viewRefs : List (String × String)
  grid : Grid
deriving DecidableEq, Repr

namespace PreviewState

def empty : PreviewState :=
  ⟨[], [], .empty⟩

variable {σ : Type} [EntityLookup σ]

/-- How an id is shown. -/
def shown (s : PreviewState) (store : σ) (id : String) : Shown :=
  match s.elementRefs.lookup id with
  | some (name, type) => .newElement name type id
  | none =>
    match s.viewRefs.lookup id with
    | some name => .newView name id
    | none =>
      match EntityLookup.entity? store id with
      | some entity => .live entity
      | none => .unknown id

def declareElement (s : PreviewState) (name : String) (type : ElementType) :
    Option String → PreviewState
  | none => s
  | some ref => { s with elementRefs := (ref, name, type) :: s.elementRefs }

def declareView (s : PreviewState) (name : String) : Option String → PreviewState
  | none => s
  | some ref => { s with viewRefs := (ref, name) :: s.viewRefs }

end PreviewState

section

variable {σ : Type} [EntityLookup σ] (oracle : Oracle) (store : σ)

/-- Describes an action. -/
def announce (action : Action) (s : PreviewState) :
    Except ActionError Announcement × PreviewState :=
  match action with
  | .createElement label name ref _ =>
    match oracle.elementType? label with
    | none => (.error (.unknownElementType label), s)
    | some type => (.ok (.createElement type name), s.declareElement name type ref)
  | .renameElement id name => (.ok (.rename (s.shown store id) name), s)
  | .deleteElement id =>
    let attached :=
      if (s.elementRefs.lookup id).isSome then 0 else (EntityLookup.cascade store id).length
    (.ok (.deleteElement (s.shown store id) attached), s)
  | .setProperty id key value => (.ok (.setProperty key value (s.shown store id)), s)
  | .removeProperty id key => (.ok (.removeProperty key (s.shown store id)), s)
  | .setDocumentation id _ => (.ok (.setDocumentation (s.shown store id)), s)
  | .createRelationship label source target _ =>
    match oracle.relationshipType? label with
    | none => (.error (.unknownRelationshipType label), s)
    | some type =>
      (.ok (.createRelationship type (s.shown store source) (s.shown store target)), s)
  | .deleteRelationship id => (.ok (.deleteRelationship (s.shown store id)), s)
  | .createView name ref => (.ok (.createView name), s.declareView name ref)
  | .addToView view element x y width height =>
    let (bounds, placement) := s.grid.boundsFor view ⟨x, y, width, height⟩
    let s := { s with grid := s.grid.commit view placement }
    (.ok (.place (s.shown store element) (s.shown store view) bounds), s)
  | .moveToFolder id path => (.ok (.move (s.shown store id) path), s)

/-- The verdict on an action that was described. -/
def previewVerdict : Except ActionError Announcement → Verdict
  | .ok announcement => .applied (.announced announcement) none
  | .error error => .failed error

/-- Describes the actions numbered from `index` on. -/
def announceAll (index : Nat) (s : PreviewState) (result : Result) : List Action → Result
  | [] => result
  | action :: actions =>
    let (said, s) := announce oracle store action s
    announceAll (index + 1) s (result.record ⟨index, action.op, previewVerdict said⟩) actions

end

end ArchChange.Execution
