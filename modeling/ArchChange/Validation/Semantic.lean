import ArchChange.Compatibility
import ArchChange.Model.Store
import ArchChange.Plan.Action
import ArchChange.Validation.Issue
/-!
The semantic phase: what the ids of the actions stand for. Actions are visited in order; each one
sees the references declared and the ids deleted by those before it.
-/
namespace ArchChange.Validation

/-- The live entities that a plan may touch. -/
structure Scope where
  ids : List String
deriving DecidableEq, Repr

def Scope.contains (s : Scope) (id : String) : Bool :=
  s.ids.contains id

/-- What the actions visited so far have declared, deleted and changed. -/
structure Tables where
  /-- The references to new elements, with their types if known; latest first. -/
  elementRefs : List (String × Option ElementType)
  /-- The references to new views. -/
  viewRefs : List String
  /-- The deleted ids and the actions that deleted them; latest first. -/
  deleted : List (String × Nat)
  renamed : List String
  documented : List String
  /-- The properties set, as pairs of id and key. -/
  propertiesSet : List (String × String)
deriving DecidableEq, Repr

namespace Tables

def empty : Tables :=
  ⟨[], [], [], [], [], []⟩

def isDeleted (t : Tables) (id : String) : Bool :=
  (t.deleted.lookup id).isSome

def declares (t : Tables) (ref : String) : Bool :=
  (t.elementRefs.lookup ref).isSome || t.viewRefs.contains ref

def deletedProblem? (t : Tables) (id : String) : Option SemanticProblem :=
  (t.deleted.lookup id).map fun action => .deletedBefore id action

end Tables

/-- What an id stands for in an action. -/
inductive Resolved where
  | element (type : Option ElementType)
  | relationship (type : RelationshipType)
  | view
deriving DecidableEq, Repr

/-- What the phase finds. -/
structure Findings where
  errors : List Issue
  warnings : List Issue

namespace Findings

def none : Findings := ⟨[], []⟩

def error (index : Nat) (field : Field) (problem : SemanticProblem) : Findings :=
  ⟨[⟨some index, some field.spelling, .semantic problem⟩], []⟩

def warning (index : Nat) (field : Field) (problem : SemanticProblem) : Findings :=
  ⟨[], [⟨some index, some field.spelling, .semantic problem⟩]⟩

def warningIf (condition : Bool) (index : Nat) (field : Field) (problem : SemanticProblem) :
    Findings :=
  if condition then warning index field problem else none

instance : Append Findings :=
  ⟨fun f g => ⟨f.errors ++ g.errors, f.warnings ++ g.warnings⟩⟩

end Findings

section

variable {σ : Type} [EntityLookup σ] (oracle : Oracle) (store : σ) (scope : Option Scope)

def inScope (scope : Option Scope) (id : String) : Bool :=
  match scope with
  | none => true
  | some s => s.contains id

/-- What an id stands for: deleted ids come first, then references, then the live model. Views
are always in scope. -/
def resolve (t : Tables) (id : String) : Except SemanticProblem Resolved :=
  match t.deletedProblem? id with
  | some problem => .error problem
  | none =>
    match t.elementRefs.lookup id with
    | some type => .ok (.element type)
    | none =>
      if t.viewRefs.contains id then .ok .view
      else
        match EntityLookup.entity? store id with
        | none => .error (.notFound id)
        | some e =>
          match e.kind with
          | .view => .ok .view
          | .element type =>
            if inScope scope id then .ok (.element (some type)) else .error (.outsideScope id)
          | .relationship type =>
            if inScope scope id then .ok (.relationship type) else .error (.outsideScope id)

/-- Declares a reference, unless it is declared already. -/
def declareRef (index : Nat) (ref : String) (t : Tables) (declare : Tables → Tables) :
    Findings × Tables :=
  if t.declares ref then (.error index .refId (.refDeclaredTwice ref), t)
  else
    (.warningIf (EntityLookup.entity? store ref).isSome index .refId (.refShadows ref),
      declare t)

/-- One end of a relationship: its element type, if that is known. -/
def resolveEndpoint (index : Nat) (field : Field) (id : String) (t : Tables) :
    Findings × Option ElementType :=
  match resolve store scope t id with
  | .ok (.element type) => (.none, type)
  | .ok (.relationship _) => (.none, none)
  | .ok .view => (.error index field (.viewAsEndpoint id), none)
  | .error problem => (.error index field problem, none)

/-- Whether the rules allow a relationship, as far as its types are known. -/
def checkPermitted (index : Nat) (source target : Option ElementType)
    (type : Option RelationshipType) : Findings :=
  match source, target, type with
  | some s, some t, some r =>
    .warningIf (!oracle.isAllowed s t r) index .relationshipType
      (.notPermitted r s t (oracle.allowed s t))
  | _, _, _ => .none

/-- Checks the id that an action changes, and records the change if it stands for something. -/
def checkTarget (index : Nat) (id : String) (t : Tables)
    (record : Tables → Findings × Tables) : Findings × Tables :=
  match resolve store scope t id with
  | .ok _ => record t
  | .error problem => (.error index .id problem, t)

/-- What is wrong with the id of a view that something is placed on. -/
def viewProblem? (t : Tables) (id : String) : Option SemanticProblem :=
  match t.deletedProblem? id with
  | some problem => some problem
  | none =>
    if t.viewRefs.contains id then none
    else if (t.elementRefs.lookup id).isSome then some (.refNamesElement id)
    else
      match EntityLookup.entity? store id with
      | none => some (.viewNotFound id)
      | some e => if e.kind = .view then none else some (.notAView id e.kind)

/-- What is wrong with the id of something that is placed on a view. -/
def placedProblem? (t : Tables) (id : String) : Option SemanticProblem :=
  match resolve store scope t id with
  | .ok (.element _) => none
  | .ok .view => some (.viewOnView id)
  | .ok (.relationship _) => some (.relationshipOnView id)
  | .error problem => some problem

def errorOf? (index : Nat) (field : Field) : Option SemanticProblem → Findings
  | none => .none
  | some problem => .error index field problem

/-- Marks ids as deleted by an action. -/
def Tables.delete (t : Tables) (index : Nat) (ids : List String) : Tables :=
  { t with deleted := ids.reverse.map (fun id => (id, index)) ++ t.deleted }

def checkDeleteElement (index : Nat) (id : String) (t : Tables) : Findings × Tables :=
  match resolve store scope t id with
  | .error problem => (.error index .id problem, t)
  | .ok (.relationship _) => (.error index .id (.deletesRelationship id), t)
  | .ok _ =>
    let cascaded :=
      if t.declares id then []
      else (EntityLookup.cascade store id).filter fun r => !t.isDeleted r
    (.warningIf (!cascaded.isEmpty) index .id (.cascades id cascaded.length),
      t.delete index (cascaded ++ [id]))

def checkDeleteRelationship (index : Nat) (id : String) (t : Tables) : Findings × Tables :=
  match t.deletedProblem? id with
  | some problem => (.error index .id problem, t)
  | none =>
    match (EntityLookup.entity? store id).map Entity.kind with
    | none => (.error index .id (.relationshipNotFound id), t)
    | some (.relationship _) =>
      if inScope scope id then (.none, t.delete index [id])
      else (.error index .id (.outsideScope id), t)
    | some kind => (.error index .id (.notARelationship id kind), t)

def checkAction (index : Nat) (action : Action) (t : Tables) : Findings × Tables :=
  match action with
  | .createElement _ _ none _ | .createView _ none => (.none, t)
  | .createElement type _ (some ref) _ =>
    declareRef store index ref t fun t =>
      { t with elementRefs := (ref, oracle.elementType? type) :: t.elementRefs }
  | .createView _ (some ref) =>
    declareRef store index ref t fun t => { t with viewRefs := ref :: t.viewRefs }
  | .createRelationship type sourceId targetId _ =>
    let (f, source) := resolveEndpoint store scope index .sourceId sourceId t
    let (g, target) := resolveEndpoint store scope index .targetId targetId t
    (f ++ g ++ checkPermitted oracle index source target (oracle.relationshipType? type), t)
  | .deleteElement id => checkDeleteElement store scope index id t
  | .deleteRelationship id => checkDeleteRelationship store scope index id t
  | .renameElement id _ =>
    checkTarget store scope index id t fun t =>
      (.warningIf (t.renamed.contains id) index .id (.renamedTwice id),
        { t with renamed := id :: t.renamed })
  | .setProperty id key _ =>
    checkTarget store scope index id t fun t =>
      (.warningIf (t.propertiesSet.contains (id, key)) index .key (.propertySetTwice key id),
        { t with propertiesSet := (id, key) :: t.propertiesSet })
  | .setDocumentation id _ =>
    checkTarget store scope index id t fun t =>
      (.warningIf (t.documented.contains id) index .id (.documentedTwice id),
        { t with documented := id :: t.documented })
  | .removeProperty id _ | .moveToFolder id _ =>
    checkTarget store scope index id t fun t => (.none, t)
  | .addToView viewId elementId _ _ _ _ =>
    (errorOf? index .viewId (viewProblem? store t viewId) ++
      errorOf? index .elementId (placedProblem? store scope t elementId), t)

/-- Visits the actions numbered from `index` on. -/
def checkActions (index : Nat) (t : Tables) : List Action → Findings × Tables
  | [] => (.none, t)
  | action :: actions =>
    let (f, t) := checkAction oracle store scope index action t
    let (g, t) := checkActions (index + 1) t actions
    (f ++ g, t)

end

end ArchChange.Validation
