import ArchChange.Proofs.Plan.Decoding
/-!
Plans under other names. The ids in a plan can be renamed in its actions and in the JSON value that
it is decoded from; the renamed value spells the renamed plan.
-/
namespace ArchChange

/-- The fields that hold an id. -/
def Field.holdsId : Field → Bool
  | refId | id | sourceId | targetId | viewId | elementId => true
  | _ => false

theorem Field.kind_of_holdsId {f : Field} (h : f.holdsId) : f.kind = idKind := by
  cases f <;> simp_all [holdsId, kind]

namespace Action

/-- The ids in an action, whether it names something by them or declares them. -/
def ids : Action → List String
  | createElement _ _ ref _ | createView _ ref => ref.toList
  | renameElement id _ | deleteElement id | setProperty id _ _ | removeProperty id _
  | setDocumentation id _ | deleteRelationship id | moveToFolder id _ => [id]
  | createRelationship _ source target _ => [source, target]
  | addToView view element _ _ _ _ => [view, element]

/-- The action with other ids. -/
def rename (f : String → String) : Action → Action
  | createElement type name ref text => createElement type name (ref.map f) text
  | renameElement id name => renameElement (f id) name
  | deleteElement id => deleteElement (f id)
  | setProperty id key value => setProperty (f id) key value
  | removeProperty id key => removeProperty (f id) key
  | setDocumentation id text => setDocumentation (f id) text
  | createRelationship type source target name => createRelationship type (f source) (f target) name
  | deleteRelationship id => deleteRelationship (f id)
  | createView name ref => createView name (ref.map f)
  | addToView view element x y width height => addToView (f view) (f element) x y width height
  | moveToFolder id path => moveToFolder (f id) path

variable {f g : String → String} {a : Action}

theorem rename_congr (h : ∀ id ∈ a.ids, f id = g id) : a.rename f = a.rename g := by
  cases a with
  | createElement type name ref text => cases ref <;> simp_all [ids, rename]
  | createView name ref => cases ref <;> simp_all [ids, rename]
  | _ => simp_all [ids, rename]

@[simp] theorem op_rename (f : String → String) (a : Action) : (a.rename f).op = a.op := by
  cases a <;> rfl

theorem inRange_rename : (a.rename f).InRange ↔ a.InRange := by
  cases a <;> rfl

end Action

/-- The plan with other ids. -/
def ChangePlan.rename (f : String → String) (p : ChangePlan) : ChangePlan :=
  { p with actions := p.actions.map (Action.rename f) }

namespace Plan

/-- A text renamed; other values stay. -/
def renameText (f : String → String) : Json → Json
  | .str s => .str (f s)
  | v => v

/-- The value of an action's field renamed, if the field holds an id. -/
def renameField (f : String → String) (key : String) (value : Json) : Json :=
  if (Field.ofSpelling? key).any Field.holdsId then renameText f value else value

def renameAction (f : String → String) : Json → Json
  | .obj fields => .obj (fields.map fun p => (p.1, renameField f p.1 p.2))
  | v => v

def renameActions (f : String → String) : Json → Json
  | .arr items => .arr (items.map (renameAction f))
  | v => v

/-- The value of a plan's field renamed, if it is that for the actions. -/
def renamePlanField (f : String → String) (key : String) (value : Json) : Json :=
  if key = PlanField.actions.spelling then renameActions f value else value

/-- The value of a plan with all ids in its actions renamed. -/
def renameIds (f : String → String) : Json → Json
  | .obj fields => .obj (fields.map fun p => (p.1, renamePlanField f p.1 p.2))
  | v => v

variable {f : String → String}

theorem renameField_spelling (field : Field) (value : Json) : renameField f field.spelling value =
    if field.holdsId then renameText f value else value := by
  rw [renameField, Field.ofSpelling?_spelling]
  rfl

theorem slots_rename (a : Action) : (a.rename f).slots =
    a.slots.map fun s => (s.1, renameField f s.1.spelling s.2) := by
  simp only [renameField_spelling]
  cases a with
  | createElement type name ref text => cases ref <;> rfl
  | createView name ref => cases ref <;> rfl
  | _ => rfl

theorem renameField_null (key : String) : renameField f key .null = .null := by
  unfold renameField
  split <;> rfl

theorem spelledBy_renameAction {a : Action} {fields : List (String × Json)}
    (h : a.SpelledBy fields) :
    (a.rename f).SpelledBy (fields.map fun p => (p.1, renameField f p.1 p.2)) := by
  constructor
  · rw [lookup_mapValues, h.op, Action.op_rename]
    rfl
  · rw [Action.op_rename, slots_rename, ← h.slots, List.map_map]
    refine List.map_congr_left fun field _ => Prod.ext rfl ?_
    simp only [lookup_mapValues, Function.comp_apply]
    cases fields.lookup field.spelling with
    | none => exact (renameField_null _).symm
    | some v => rfl

theorem lookup_renamePlanField {key : String} (h : key ≠ PlanField.actions.spelling)
    (fields : List (String × Json)) :
    (fields.map fun p => (p.1, renamePlanField f p.1 p.2)).lookup key = fields.lookup key := by
  have hid : renamePlanField f key = id := funext fun _ => if_neg h
  rw [lookup_mapValues, hid, Option.map_id, id]

/-- A renamed value spells the renamed plan. -/
theorem spelledBy_renameIds {p : ChangePlan} {fields : List (String × Json)}
    (h : p.SpelledBy fields) :
    (p.rename f).SpelledBy (fields.map fun p => (p.1, renamePlanField f p.1 p.2)) := by
  obtain ⟨items, hitems, hspelled⟩ := h.actions
  refine ⟨?_, ?_, ?_, ?_, items.map (renameAction f), ?_, ?_⟩
  · rw [lookup_renamePlanField (by decide), h.schemaVersion]
    rfl
  · rw [lookup_renamePlanField (by decide), h.status]
    rfl
  · rw [lookup_renamePlanField (by decide), h.summary]
    rfl
  · rw [Json.present?, lookup_renamePlanField (by decide)]
    exact h.questions
  · rw [lookup_mapValues, hitems]
    rfl
  · rw [ChangePlan.rename, List.forall₂_map_left_iff, List.forall₂_map_right_iff]
    refine hspelled.imp ?_
    rintro item a ⟨fs, rfl, hfs⟩
    exact ⟨_, rfl, spelledBy_renameAction hfs⟩

end Plan

end ArchChange
