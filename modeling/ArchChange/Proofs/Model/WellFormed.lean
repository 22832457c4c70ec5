import ArchChange.Proofs.Model.Allocation
import ArchChange.Proofs.Model.FolderTree
import Mathlib.Logic.Relation
/-!
Well-formed models: ids are unique, and whatever refers to something refers to something that is
there. What an id stands for is read off the lists of ids. Well-filed models also list each entity
in one folder at most; little depends on that.
-/
namespace ArchChange

def View.childIds (v : View) : List String :=
  v.children.map Visual.id

/-- What is on a view shows what there is: a visual an element, a connection a relationship, and
this between two visuals of the same view. -/
structure View.Sound (elements relationships : List String) (v : View) : Prop where
  visuals : ∀ c ∈ v.children, c.entityId ∈ elements
  connections : ∀ c ∈ v.connections, c.relationshipId ∈ relationships ∧
    c.sourceVisual ∈ v.childIds ∧ c.targetVisual ∈ v.childIds

theorem View.Sound.mono {elements elements' relationships relationships' : List String}
    {v : View} (h : v.Sound elements relationships) (he : elements ⊆ elements')
    (hr : relationships ⊆ relationships') : v.Sound elements' relationships' where
  visuals c hc := he (h.visuals c hc)
  connections c hc := ⟨hr (h.connections c hc).1, (h.connections c hc).2⟩

namespace Model

def elementIds (m : Model) : List String :=
  m.elements.map Element.id

def relationshipIds (m : Model) : List String :=
  m.relationships.map Relationship.id

def viewIds (m : Model) : List String :=
  m.views.map View.id

/-- The ids that a relationship may join. -/
def endpointIds (m : Model) : List String :=
  m.elementIds ++ m.relationshipIds

def entityIds (m : Model) : List String :=
  m.endpointIds ++ m.viewIds

/-- The ids of what is drawn on the views. -/
def drawnIds (m : Model) : List String :=
  m.views.flatMap fun v => v.children.map Visual.id ++ v.connections.map Connection.id

/-- The first id is that of a relationship whose source or target is the second. -/
def Attached (m : Model) (relationship id : String) : Prop :=
  relationship ∈ m.attached id

/-- Following relationships from one to what it joins never comes back. -/
def Acyclic (m : Model) : Prop :=
  ∀ id, ¬ Relation.TransGen m.Attached id id

structure WellFormed (m : Model) : Prop where
  ids_nodup : m.ids.Nodup
  endpoints : ∀ r ∈ m.relationships, r.source ∈ m.endpointIds ∧ r.target ∈ m.endpointIds
  acyclic : m.Acyclic
  views : ∀ v ∈ m.views, v.Sound m.elementIds m.relationshipIds
  members : ∀ id ∈ Folder.membersIn m.folders, id ∈ m.entityIds

/-- No id is listed twice in the folders. -/
def FiledOnce (m : Model) : Prop :=
  (Folder.membersIn m.folders).Nodup

structure WellFiled (m : Model) : Prop extends WellFormed m where
  filedOnce : m.FiledOnce

variable {m : Model} {id : String}

theorem ids_eq (m : Model) : m.ids = m.entityIds ++ m.drawnIds ++ Folder.idsIn m.folders := rfl

theorem mem_attached {r : String} :
    r ∈ m.attached id ↔ ∃ x ∈ m.relationships, x.id = r ∧ (x.source = id ∨ x.target = id) := by
  simp only [attached, List.mem_map, List.mem_filter, Bool.or_eq_true, beq_iff_eq]
  constructor
  · rintro ⟨x, ⟨hx, he⟩, rfl⟩
    exact ⟨x, hx, rfl, he⟩
  · rintro ⟨x, hx, rfl, he⟩
    exact ⟨x, ⟨hx, he⟩, rfl⟩

theorem mem_relationshipIds_of_attached {r : String} (h : m.Attached r id) :
    r ∈ m.relationshipIds := by
  obtain ⟨x, hx, rfl, -⟩ := mem_attached.mp h
  exact List.mem_map_of_mem hx

theorem WellFormed.mem_endpointIds_of_attached (hm : m.WellFormed) {r : String}
    (h : m.Attached r id) : id ∈ m.endpointIds := by
  obtain ⟨x, hx, -, rfl | rfl⟩ := mem_attached.mp h
  · exact (hm.endpoints x hx).1
  · exact (hm.endpoints x hx).2

/-- Taking attachments away makes no cycle. -/
theorem Acyclic.mono {m' : Model} (hm : m.Acyclic)
    (h : ∀ r id, m'.Attached r id → m.Attached r id) : m'.Acyclic := by
  intro id hc
  exact hm id (Relation.TransGen.mono h id id hc)

/-! What an id stands for. -/

/-- The kind of the entity with an id. -/
def kind? (m : Model) (id : String) : Option EntityKind :=
  (m.entity? id).map Entity.kind

theorem element?_isSome_iff : (m.element? id).isSome ↔ id ∈ m.elementIds := by
  simp [element?, elementIds, List.find?_isSome]

theorem relationship?_isSome_iff : (m.relationship? id).isSome ↔ id ∈ m.relationshipIds := by
  simp [relationship?, relationshipIds, List.find?_isSome]

theorem view?_isSome_iff : (m.view? id).isSome ↔ id ∈ m.viewIds := by
  simp [view?, viewIds, List.find?_isSome]

theorem element?_eq_none_iff : m.element? id = none ↔ id ∉ m.elementIds := by
  rw [← Option.not_isSome_iff_eq_none, element?_isSome_iff]

theorem relationship?_eq_none_iff : m.relationship? id = none ↔ id ∉ m.relationshipIds := by
  rw [← Option.not_isSome_iff_eq_none, relationship?_isSome_iff]

theorem view?_eq_none_iff : m.view? id = none ↔ id ∉ m.viewIds := by
  rw [← Option.not_isSome_iff_eq_none, view?_isSome_iff]

theorem entity?_id {e : Entity} (h : m.entity? id = some e) : e.id = id := by
  unfold entity? element? relationship? view? at h
  split at h
  · next x hx =>
    cases h
    simpa using List.find?_some hx
  · split at h
    · next x hx =>
      cases h
      simpa using List.find?_some hx
    · obtain ⟨x, hx, rfl⟩ := Option.map_eq_some_iff.mp h
      simpa using List.find?_some hx

theorem kind?_eq (m : Model) (id : String) :
    m.kind? id = ((m.element? id).map fun e => .element e.type).or
      (((m.relationship? id).map fun r => .relationship r.type).or
        ((m.view? id).map fun _ => .view)) := by
  unfold kind? entity?
  cases m.element? id with
  | some e => rfl
  | none =>
    cases m.relationship? id with
    | some r => rfl
    | none => cases m.view? id <;> rfl

theorem entity?_isSome_iff : (m.entity? id).isSome ↔ id ∈ m.entityIds := by
  have h := congrArg Option.isSome (kind?_eq m id)
  simp only [kind?, Option.isSome_map, Option.isSome_or] at h
  rw [h]
  simp only [Bool.or_eq_true, element?_isSome_iff, relationship?_isSome_iff, view?_isSome_iff,
    entityIds, endpointIds, List.mem_append, or_assoc]

theorem entity?_eq_none_iff : m.entity? id = none ↔ id ∉ m.entityIds := by
  rw [← Option.not_isSome_iff_eq_none, entity?_isSome_iff]

theorem kind?_isSome_iff : (m.kind? id).isSome ↔ id ∈ m.entityIds := by
  rw [kind?, Option.isSome_map, entity?_isSome_iff]

theorem kind?_eq_none_iff : m.kind? id = none ↔ id ∉ m.entityIds := by
  rw [← Option.not_isSome_iff_eq_none, kind?_isSome_iff]

theorem mem_elementIds_iff : id ∈ m.elementIds ↔ ∃ type, m.kind? id = some (.element type) := by
  rw [← element?_isSome_iff, kind?_eq]
  cases m.element? id <;> cases m.relationship? id <;> cases m.view? id <;> simp

theorem kind?_eq_relationship (h : ∃ type, m.kind? id = some (.relationship type)) :
    id ∈ m.relationshipIds := by
  rw [kind?_eq] at h
  rw [← relationship?_isSome_iff]
  cases he : m.element? id <;> cases hr : m.relationship? id <;> cases hv : m.view? id <;>
    simp_all

theorem mem_entityIds_of_relationship (h : id ∈ m.relationshipIds) : id ∈ m.entityIds :=
  List.mem_append_left _ (List.mem_append_right _ h)

theorem kind?_eq_view (h : m.kind? id = some .view) : id ∈ m.viewIds := by
  rw [kind?_eq] at h
  rw [← view?_isSome_iff]
  cases he : m.element? id <;> cases hr : m.relationship? id <;> cases hv : m.view? id <;>
    simp_all

/-- Under distinct keys each item is found by its key. -/
theorem find?_of_mem {α : Type} {key : α → String} {l : List α} (hn : (l.map key).Nodup) {a : α}
    (ha : a ∈ l) : (l.find? fun b => key b == key a) = some a := by
  cases h : l.find? fun b => key b == key a with
  | none =>
    have hne := List.find?_eq_none.mp h a ha
    simp at hne
  | some b =>
    have hb : key b = key a := by simpa using List.find?_some h
    rw [List.inj_on_of_nodup_map hn (List.mem_of_find?_eq_some h) ha hb]

/-! No id belongs to two things. -/

namespace WellFormed

theorem entityIds_nodup (hm : m.WellFormed) : m.entityIds.Nodup :=
  (List.nodup_append.mp (List.nodup_append.mp hm.ids_nodup).1).1

theorem folderIds_nodup (hm : m.WellFormed) : (Folder.idsIn m.folders).Nodup :=
  (List.nodup_append.mp hm.ids_nodup).2.1

theorem viewIds_nodup (hm : m.WellFormed) : m.viewIds.Nodup :=
  (List.nodup_append.mp hm.entityIds_nodup).2.1

theorem endpointIds_nodup (hm : m.WellFormed) : m.endpointIds.Nodup :=
  (List.nodup_append.mp hm.entityIds_nodup).1

theorem relationshipIds_nodup (hm : m.WellFormed) : m.relationshipIds.Nodup :=
  (List.nodup_append.mp hm.endpointIds_nodup).2.1

theorem element?_of_mem (hm : m.WellFormed) {e : Element} (he : e ∈ m.elements) :
    m.element? e.id = some e :=
  find?_of_mem (List.nodup_append.mp hm.endpointIds_nodup).1 he

theorem relationship?_of_mem (hm : m.WellFormed) {r : Relationship} (hr : r ∈ m.relationships) :
    m.relationship? r.id = some r :=
  find?_of_mem hm.relationshipIds_nodup hr

theorem not_element_of_relationship (hm : m.WellFormed) (h : id ∈ m.relationshipIds) :
    id ∉ m.elementIds := by
  intro he
  exact (List.nodup_append.mp hm.endpointIds_nodup).2.2 id he id h rfl

theorem not_endpoint_of_view (hm : m.WellFormed) (h : id ∈ m.viewIds) : id ∉ m.endpointIds := by
  intro he
  exact (List.nodup_append.mp hm.entityIds_nodup).2.2 id he id h rfl

theorem mem_relationshipIds_iff (hm : m.WellFormed) :
    id ∈ m.relationshipIds ↔ ∃ type, m.kind? id = some (.relationship type) := by
  refine ⟨?_, kind?_eq_relationship⟩
  intro h
  have he : m.element? id = none :=
    element?_eq_none_iff.mpr (hm.not_element_of_relationship h)
  obtain ⟨r, hr⟩ := Option.isSome_iff_exists.mp (relationship?_isSome_iff.mpr h)
  exact ⟨r.type, by simp [kind?_eq, he, hr]⟩

/-- An end of a relationship is what an id of an element or a relationship stands for. -/
theorem mem_endpointIds_iff (hm : m.WellFormed) :
    id ∈ m.endpointIds ↔ ∃ kind, m.kind? id = some kind ∧ kind ≠ .view := by
  rw [endpointIds, List.mem_append, mem_elementIds_iff, hm.mem_relationshipIds_iff]
  constructor
  · rintro (⟨type, h⟩ | ⟨type, h⟩)
    · exact ⟨_, h, by simp⟩
    · exact ⟨_, h, by simp⟩
  · rintro ⟨kind, h, hv⟩
    cases kind with
    | element type => exact Or.inl ⟨type, h⟩
    | relationship type => exact Or.inr ⟨type, h⟩
    | view => exact absurd rfl hv

end WellFormed

/-- A new model is well formed and well filed. -/
theorem new_wellFiled (name : String) : (Model.new name).WellFiled where
  ids_nodup := by
    change (Folder.idsIn standardFolders).Nodup
    decide
  endpoints := by simp [new]
  acyclic := by
    intro id h
    cases h with
    | single h => simp [Attached, attached, new] at h
    | tail _ h => simp [Attached, attached, new] at h
  views := by simp [new]
  members := by
    have h : Folder.membersIn standardFolders = [] := by rfl
    simp [new, h]
  filedOnce := by
    change (Folder.membersIn standardFolders).Nodup
    decide

end Model

end ArchChange
