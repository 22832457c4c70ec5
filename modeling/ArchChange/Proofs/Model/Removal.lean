import ArchChange.Proofs.Model.Deletion
/-!
What is left of a model when an entity and its cascade have been deleted, part by part: the lists
without what went, in their old order, and all else as it was.
-/
namespace ArchChange

theorem filter_ne_filter_notMem {α : Type} (key : α → String) (id : String) (l : List String)
    (as : List α) : ((as.filter fun a => key a != id).filter fun a => key a ∉ l) =
      as.filter fun a => key a ∉ id :: l := by
  rw [List.filter_filter]
  apply List.filter_congr
  intro a _
  by_cases ha : key a = id <;> simp [ha]

namespace Folder

mutual

/-- Takes entities out of a folder and all folders inside it. -/
def without (gone : List String) : Folder → Folder
  | ⟨fid, name, folders, members⟩ =>
    ⟨fid, name, withoutIn gone folders, members.filter fun m => m ∉ gone⟩
termination_by structural f => f

def withoutIn (gone : List String) : List Folder → List Folder
  | [] => []
  | f :: fs => without gone f :: withoutIn gone fs
termination_by structural fs => fs

end

theorem withoutIn_nil (fs : List Folder) : withoutIn [] fs = fs := by
  induction fs using forest_induction with
  | nil => rfl
  | cons fid name inner members rest hi hr => simp [withoutIn, without, hi, hr]

theorem withoutIn_cons (id : String) (gone : List String) (fs : List Folder) :
    withoutIn (id :: gone) fs = withoutIn gone (removeIn id fs) := by
  induction fs using forest_induction with
  | nil => rfl
  | cons fid name inner members rest hi hr =>
    simp [withoutIn, without, removeIn, remove, hi, hr, List.filter_filter, Bool.and_comm]

end Folder

namespace View

variable {v : View}

/-- The view without the visuals of an entity, and without the connections that touch them or
draw the entity or one of the relationships. -/
def withoutEntity (id : String) (relationships : List String) (v : View) : View :=
  let removed := (v.children.filter fun c => c.entityId == id).map Visual.id
  { v with
    children := v.children.filter fun c => c.entityId != id
    connections := v.connections.filter fun c => c.relationshipId ∉ id :: relationships ∧
      c.sourceVisual ∉ removed ∧ c.targetVisual ∉ removed }

/-- Ids that no visual shows only take connections away. -/
theorem foldl_erase_of_not_shown (l : List String)
    (h : ∀ c ∈ v.children, c.entityId ∉ l) : l.foldl (fun v id => v.erase id) v =
      { v with connections := v.connections.filter fun c => c.relationshipId ∉ l } := by
  induction l generalizing v with
  | nil => simp
  | cons id l ih =>
    have hid : v.erase id = v.withoutRelationship id := by
      rw [View.erase, withoutElement_eq_self fun c hc he => h c hc (he ▸ List.mem_cons_self)]
    have hl : ∀ c ∈ (v.withoutRelationship id).children, c.entityId ∉ l :=
      fun c hc he => h c hc (List.mem_cons_of_mem _ he)
    rw [List.foldl_cons, hid, ih hl]
    rw [withoutRelationship, filter_ne_filter_notMem Connection.relationshipId]

theorem erase_foldl_erase (id : String) {l : List String}
    (h : ∀ c ∈ v.children, c.entityId ∉ l) :
    (l.foldl (fun v id => v.erase id) v).erase id = v.withoutEntity id l := by
  rw [foldl_erase_of_not_shown l h]
  simp only [View.erase, withoutElement, withoutRelationship, withoutEntity, List.filter_filter]
  congr 1
  apply List.filter_congr
  intro c _
  rw [Bool.eq_iff_iff]
  simp
  tauto

end View

namespace Model

variable {m : Model} {id : String}

/-- The model without an entity and its cascade: without what shows or draws one of them, and
without all that is on it if the entity is a view. -/
def withoutCascade (m : Model) (id : String) : Model :=
  { m with
    elements := m.elements.filter fun e => e.id != id
    relationships := m.relationships.filter fun r => r.id ∉ m.cascade id ++ [id]
    views := (m.views.filter fun v => v.id != id).map (View.withoutEntity id (m.cascade id))
    folders := Folder.withoutIn (m.cascade id ++ [id]) m.folders }

theorem eraseAll_eq (l : List String) : m.eraseAll l =
    { m with
      elements := m.elements.filter fun e => e.id ∉ l
      relationships := m.relationships.filter fun r => r.id ∉ l
      views := (m.views.filter fun v => v.id ∉ l).map fun v => l.foldl (fun v id => v.erase id) v
      folders := Folder.withoutIn l m.folders } := by
  induction l generalizing m with
  | nil => simp [eraseAll, Folder.withoutIn_nil]
  | cons id l ih =>
    have hviews : ((m.erase id).views.filter fun v => v.id ∉ l) =
        (m.views.filter fun v => v.id ∉ id :: l).map (View.erase id) := by
      rw [Model.erase, List.filter_map, ← filter_ne_filter_notMem View.id]
      rfl
    rw [eraseAll_cons, ih, hviews, List.map_map, Folder.withoutIn_cons,
      ← filter_ne_filter_notMem Element.id, ← filter_ne_filter_notMem Relationship.id]
    rfl

/-- In a well-formed model nothing but relationships bears the ids of a cascade, so these take
relationships and their connections away, and the entity all else that goes. -/
theorem WellFormed.eraseAll_cascade (hm : m.WellFormed) (id : String) :
    m.eraseAll (m.cascade id ++ [id]) = m.withoutCascade id := by
  have helement : ∀ x ∈ m.cascade id, x ∉ m.elementIds :=
    fun x hx => hm.not_element_of_relationship (mem_relationshipIds_of_mem_cascade hx)
  have hview : ∀ x ∈ m.cascade id, x ∉ m.viewIds := fun x hx hv => hm.not_endpoint_of_view hv
    (List.mem_append_right _ (mem_relationshipIds_of_mem_cascade hx))
  have hother : ∀ {α : Type} (key : α → String) (as : List α),
      (∀ x ∈ m.cascade id, x ∉ as.map key) →
      (as.filter fun a => key a ∉ m.cascade id ++ [id]) = as.filter fun a => key a != id := by
    intro α key as h
    apply List.filter_congr
    intro a ha
    -- the lists other than that of the relationships have no id of the cascade
    have hn : key a ∉ m.cascade id := fun hc => h _ hc (List.mem_map_of_mem ha)
    by_cases he : key a = id <;> simp [he, hn]
  have hviews : ((m.views.filter fun v => v.id != id).map fun v =>
      (m.cascade id ++ [id]).foldl (fun v x => v.erase x) v) =
      (m.views.filter fun v => v.id != id).map (View.withoutEntity id (m.cascade id)) := by
    apply List.map_congr_left
    intro v hv
    have hsound := hm.views v (List.mem_of_mem_filter hv)
    rw [List.foldl_append]
    exact View.erase_foldl_erase id fun c hc hn => helement _ hn (hsound.visuals c hc)
  rw [eraseAll_eq, hother Element.id m.elements helement, hother View.id m.views hview, hviews]
  rfl

end Model

end ArchChange
