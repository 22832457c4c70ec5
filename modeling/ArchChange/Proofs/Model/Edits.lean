import ArchChange.Model.Change
import ArchChange.Proofs.Model.WellFormed
/-!
Changes that leave the entities of a model as they are: edits of names, documentation and
properties, and filing. Which entities there are, of which types, and what the relationships join
decides what ids stand for and what is attached to what.
-/
namespace ArchChange

section

variable {α β : Type} {p : α → Bool} {change : α → α}

theorem map_modifyFirst {g : α → β} (h : ∀ a, g (change a) = g a) (l : List α) :
    (modifyFirst p change l).map g = l.map g := by
  induction l with
  | nil => rfl
  | cons a l ih =>
    by_cases ha : p a
    · simp [modifyFirst, ha, h]
    · simp [modifyFirst, ha, ih]

theorem mem_modifyFirst {a : α} {l : List α} (h : a ∈ modifyFirst p change l) :
    a ∈ l ∨ ∃ b ∈ l, p b ∧ a = change b := by
  induction l with
  | nil => cases h
  | cons b l ih =>
    by_cases hb : p b
    · rw [modifyFirst, if_pos hb] at h
      rcases List.mem_cons.mp h with rfl | h
      · exact Or.inr ⟨b, List.mem_cons_self, hb, rfl⟩
      · exact Or.inl (List.mem_cons_of_mem _ h)
    · rw [modifyFirst, if_neg hb] at h
      rcases List.mem_cons.mp h with rfl | h
      · exact Or.inl List.mem_cons_self
      · rcases ih h with h | ⟨c, hc, hp, rfl⟩
        · exact Or.inl (List.mem_cons_of_mem _ h)
        · exact Or.inr ⟨c, List.mem_cons_of_mem _ hc, hp, rfl⟩

/-- The item that is changed is the one that is found. -/
theorem find?_modifyFirst (hp : ∀ a, p (change a) = p a) (l : List α) :
    (modifyFirst p change l).find? p = (l.find? p).map change := by
  induction l with
  | nil => rfl
  | cons a l ih =>
    by_cases ha : p a
    · simp [modifyFirst, ha, hp]
    · simp [modifyFirst, ha, ih]

/-- What the change adds to the item that it meets is what the list gains. -/
theorem flatMap_modifyFirst {g : α → List β} {extra : List β} {l : List α}
    (hg : ∀ a, (g (change a)).Perm (extra ++ g a)) (hp : ∃ a ∈ l, p a) :
    ((modifyFirst p change l).flatMap g).Perm (extra ++ l.flatMap g) := by
  induction l with
  | nil => simp at hp
  | cons a l ih =>
    by_cases ha : p a
    · rw [modifyFirst, if_pos ha, List.flatMap_cons, List.flatMap_cons, ← List.append_assoc]
      exact (hg a).append_right _
    · have hl : ∃ b ∈ l, p b := by
        obtain ⟨b, hb, hpb⟩ := hp
        rcases List.mem_cons.mp hb with rfl | hb
        · exact absurd hpb ha
        · exact ⟨b, hb, hpb⟩
      rw [modifyFirst, if_neg ha, List.flatMap_cons, List.flatMap_cons]
      exact ((ih hl).append_left _).trans (List.perm_append_comm_assoc _ _ _)

end

namespace Model

/-- The relationships with their types and what they join. -/
def links (m : Model) : List (String × RelationshipType × String × String) :=
  m.relationships.map fun r => (r.id, r.type, r.source, r.target)

/-- The two models have the same entities, of the same types, and their relationships join the
same. -/
structure SameEntities (m m' : Model) : Prop where
  elements : m'.elements.map (fun e => (e.id, e.type)) = m.elements.map fun e => (e.id, e.type)
  links : m'.links = m.links
  views : m'.viewIds = m.viewIds

theorem SameEntities.refl (m : Model) : SameEntities m m :=
  ⟨rfl, rfl, rfl⟩

theorem map_find?_id {α β : Type} {key : α → String} {view : α → β} (id : String)
    (l : List α) : (l.find? fun a => key a == id).map view =
      ((l.map fun a => (key a, view a)).find? fun p => p.1 == id).map Prod.snd := by
  rw [List.find?_map, Option.map_map]
  rfl

theorem relationshipIds_eq_links (m : Model) : m.relationshipIds = m.links.map Prod.fst := by
  simp [relationshipIds, links]

theorem attached_eq_links (m : Model) (id : String) : m.attached id =
    (m.links.filter fun l => l.2.2.1 == id || l.2.2.2 == id).map Prod.fst := by
  rw [attached, links, List.filter_map, List.map_map]
  rfl

section

variable {m m' : Model}

theorem SameEntities.elementIds (h : SameEntities m m') : m'.elementIds = m.elementIds := by
  have hmap := congrArg (List.map Prod.fst) h.elements
  simpa [Model.elementIds, Function.comp_def] using hmap

theorem SameEntities.relationshipIds (h : SameEntities m m') :
    m'.relationshipIds = m.relationshipIds := by
  rw [relationshipIds_eq_links, h.links, ← relationshipIds_eq_links]

theorem SameEntities.endpointIds (h : SameEntities m m') : m'.endpointIds = m.endpointIds := by
  rw [Model.endpointIds, h.elementIds, h.relationshipIds, Model.endpointIds]

theorem SameEntities.entityIds (h : SameEntities m m') : m'.entityIds = m.entityIds := by
  rw [Model.entityIds, h.endpointIds, h.views, Model.entityIds]

theorem SameEntities.attached (h : SameEntities m m') (id : String) :
    m'.attached id = m.attached id := by
  rw [attached_eq_links, h.links, ← attached_eq_links]

theorem SameEntities.kind? (h : SameEntities m m') (id : String) : m'.kind? id = m.kind? id := by
  have hr : m'.relationships.map (fun r => (r.id, r.type)) =
      m.relationships.map fun r => (r.id, r.type) := by
    have hl := congrArg (List.map fun l => (l.1, l.2.1)) h.links
    simpa [Model.links, Function.comp_def] using hl
  have hv : m'.views.map (fun v => (v.id, ())) = m.views.map fun v => (v.id, ()) := by
    have hl := congrArg (List.map fun i => (i, ())) h.views
    simpa [viewIds, Function.comp_def] using hl
  have he' : (m'.element? id).map Element.type = (m.element? id).map Element.type := by
    rw [element?, map_find?_id, h.elements, ← map_find?_id, element?]
  have hr' : (m'.relationship? id).map Relationship.type =
      (m.relationship? id).map Relationship.type := by
    rw [relationship?, map_find?_id, hr, ← map_find?_id, relationship?]
  have hv' : (m'.view? id).map (fun _ => ()) = (m.view? id).map fun _ => () := by
    rw [view?, map_find?_id, hv, ← map_find?_id, view?]
  have hsplit : ∀ n : Model, n.kind? id = ((n.element? id).map Element.type).elim
      (((n.relationship? id).map Relationship.type).elim
        (((n.view? id).map fun _ => ()).map fun _ => .view) (some ∘ .relationship))
      (some ∘ .element) := by
    intro n
    rw [kind?_eq]
    cases n.element? id <;> cases n.relationship? id <;> cases n.view? id <;> rfl
  rw [hsplit, hsplit, he', hr', hv']

/-- With the same entities it is left to show that ids, drawings and filing are in order. -/
theorem WellFormed.of_sameEntities (hm : m.WellFormed) (h : SameEntities m m')
    (hids : m'.ids.Nodup) (hviews : ∀ v ∈ m'.views, v.Sound m.elementIds m.relationshipIds)
    (hmem : ∀ id ∈ Folder.membersIn m'.folders, id ∈ m.entityIds) : m'.WellFormed where
  ids_nodup := hids
  endpoints := by
    intro r hr
    have hl : (r.id, r.type, r.source, r.target) ∈ m.links := by
      rw [← h.links]
      exact List.mem_map_of_mem hr
    obtain ⟨x, hx, heq⟩ := List.mem_map.mp hl
    simp only [Prod.mk.injEq] at heq
    rw [h.endpointIds, ← heq.2.2.1, ← heq.2.2.2]
    exact hm.endpoints x hx
  acyclic := by
    refine hm.acyclic.mono ?_
    intro r id hr
    rwa [Attached, h.attached] at hr
  views := by
    rw [h.elementIds, h.relationshipIds]
    exact hviews
  members := by
    rw [h.entityIds]
    exact hmem

/-- The two models differ at most in names, documentation and properties. -/
structure SameShape (m m' : Model) : Prop extends SameEntities m m' where
  drawings : m'.views.map (fun v => (v.id, v.children, v.connections)) =
    m.views.map fun v => (v.id, v.children, v.connections)
  folders : m'.folders = m.folders

theorem SameShape.ids (h : SameShape m m') : m'.ids = m.ids := by
  have hd := congrArg (List.flatMap fun d => d.2.1.map Visual.id ++ d.2.2.map Connection.id)
    h.drawings
  rw [List.flatMap_map, List.flatMap_map] at hd
  rw [ids_eq, h.entityIds, h.folders, ids_eq]
  exact congrArg (fun l => m.entityIds ++ l ++ Folder.idsIn m.folders) hd

theorem SameShape.wellFormed (h : SameShape m m') (hm : m.WellFormed) : m'.WellFormed := by
  refine hm.of_sameEntities h.toSameEntities (h.ids ▸ hm.ids_nodup) ?_
    (h.folders ▸ hm.members)
  intro v hv
  have hd : (v.id, v.children, v.connections) ∈
      m.views.map fun v => (v.id, v.children, v.connections) := by
    rw [← h.drawings]
    exact List.mem_map_of_mem hv
  obtain ⟨w, hw, heq⟩ := List.mem_map.mp hd
  simp only [Prod.mk.injEq] at heq
  obtain ⟨hvisuals, hconnections⟩ := hm.views w hw
  rw [heq.2.1] at hvisuals
  rw [heq.2.2, View.childIds, heq.2.1] at hconnections
  exact ⟨hvisuals, hconnections⟩

theorem filedOnce_of_folders_eq (h : m'.folders = m.folders) (hf : m.FiledOnce) :
    m'.FiledOnce := by
  rw [FiledOnce, h]
  exact hf

theorem SameShape.filedOnce (h : SameShape m m') (hf : m.FiledOnce) : m'.FiledOnce :=
  filedOnce_of_folders_eq h.folders hf

end

/-- A change of the entity with an id: it is refused only without such an entity, and keeps the
shape of the model. -/
structure Edits {α : Type} (change : Change α) (id : String) : Prop where
  of_mem : ∀ m : Model, id ∈ m.entityIds → ∃ a, (change m).1 = .ok a
  of_not_mem : ∀ m : Model, id ∉ m.entityIds → change m = (.error (.notFound id), m)
  sameShape : ∀ m : Model, SameShape m (change m).2

section

variable {id : String} {element : Element → Element}
  {relationship : Relationship → Relationship} {view : View → View}

theorem modifyEntity_edits (he : ∀ e, ((element e).id, (element e).type) = (e.id, e.type))
    (hr : ∀ r, ((relationship r).id, (relationship r).type, (relationship r).source,
      (relationship r).target) = (r.id, r.type, r.source, r.target))
    (hv : ∀ v, ((view v).id, (view v).children, (view v).connections) =
      (v.id, v.children, v.connections)) :
    Edits (modifyEntity id element relationship view) id where
  of_mem := by
    intro m h
    simp only [entityIds, endpointIds, List.mem_append, or_assoc, ← element?_isSome_iff,
      ← relationship?_isSome_iff, ← view?_isSome_iff] at h
    unfold modifyEntity
    split
    · exact ⟨(), rfl⟩
    · split
      · exact ⟨(), rfl⟩
      · split
        · exact ⟨(), rfl⟩
        · simp_all
  of_not_mem := by
    intro m h
    simp only [entityIds, endpointIds, List.mem_append, or_assoc, ← element?_isSome_iff,
      ← relationship?_isSome_iff, ← view?_isSome_iff, not_or] at h
    rw [modifyEntity, if_neg h.1, if_neg h.2.1, if_neg h.2.2]
  sameShape := by
    intro m
    unfold modifyEntity
    split
    · exact ⟨⟨map_modifyFirst he _, rfl, rfl⟩, rfl, rfl⟩
    · split
      · exact ⟨⟨rfl, map_modifyFirst hr _, rfl⟩, rfl, rfl⟩
      · split
        · refine ⟨⟨rfl, rfl, map_modifyFirst ?_ _⟩, map_modifyFirst hv _, rfl⟩
          intro v
          exact congrArg Prod.fst (hv v)
        · exact ⟨SameEntities.refl m, rfl, rfl⟩

theorem rename_edits (id name : String) : Edits (rename id name) id :=
  modifyEntity_edits (fun _ => rfl) (fun _ => rfl) (fun _ => rfl)

theorem setDocumentation_edits (id text : String) : Edits (setDocumentation id text) id :=
  modifyEntity_edits (fun _ => rfl) (fun _ => rfl) (fun _ => rfl)

theorem modifyProperties_edits (id : String) (change : Properties → Properties) :
    Edits (modifyProperties id change) id :=
  modifyEntity_edits (fun _ => rfl) (fun _ => rfl) (fun _ => rfl)

theorem setProperty_edits (id key value : String) : Edits (setProperty id key value) id :=
  modifyProperties_edits id _

theorem removeProperty_edits (id key : String) : Edits (removeProperty id key) id where
  of_mem := by
    intro m h
    obtain ⟨a, ha⟩ := (modifyProperties_edits id fun p => p.erase key).of_mem m h
    unfold removeProperty
    split
    · next heq =>
      rw [heq] at ha
      cases ha
    · exact ⟨_, rfl⟩
  of_not_mem := by
    intro m h
    rw [removeProperty, (modifyProperties_edits id _).of_not_mem m h]
  sameShape := by
    intro m
    have hs := (modifyProperties_edits id fun p => p.erase key).sameShape m
    unfold removeProperty
    split
    · next heq => rwa [heq] at hs
    · next heq => rwa [heq] at hs

end

/-! Filing. -/

section

variable {m : Model} {folder entity : String}

theorem moveToFolder_of_not_mem (h : entity ∉ m.entityIds) :
    moveToFolder folder entity m = (.error (.notFound entity), m) := by
  rw [moveToFolder, if_pos (by rw [entity?_eq_none_iff.mpr h]; rfl)]

theorem moveToFolder_of_no_folder (h : entity ∈ m.entityIds)
    (hf : folder ∉ Folder.idsIn m.folders) :
    moveToFolder folder entity m = (.error (.folderNotFound folder), m) := by
  have hs := entity?_isSome_iff.mpr h
  have hn : Folder.findIn? folder m.folders = none := by
    rwa [← Option.not_isSome_iff_eq_none, Folder.findIn?_isSome_iff]
  rw [moveToFolder, if_neg (by simpa using Option.isSome_iff_ne_none.mp hs),
    if_pos (by rw [hn]; rfl)]

theorem moveToFolder_of_mem (h : entity ∈ m.entityIds) (hf : folder ∈ Folder.idsIn m.folders) :
    moveToFolder folder entity m = (.ok (), { m with
      folders := Folder.fileIn folder entity (Folder.removeIn entity m.folders) }) := by
  have hs := entity?_isSome_iff.mpr h
  have hfs := Folder.findIn?_isSome_iff.mpr hf
  rw [moveToFolder, if_neg (by simpa using Option.isSome_iff_ne_none.mp hs),
    if_neg (by simpa using Option.isSome_iff_ne_none.mp hfs)]

/-- Moving an entity leaves it in one folder, and all others where they are. -/
theorem membersIn_move (hf : folder ∈ Folder.idsIn m.folders) :
    (Folder.membersIn (Folder.fileIn folder entity (Folder.removeIn entity m.folders))).Perm
      (entity :: (Folder.membersIn m.folders).filter fun x => x ≠ entity) := by
  have hfile := Folder.membersIn_fileIn folder entity (Folder.removeIn entity m.folders)
  rwa [Folder.idsIn_removeIn, if_pos hf, Folder.membersIn_removeIn] at hfile

theorem wellFormed_moveToFolder (hm : m.WellFormed) :
    (moveToFolder folder entity m).2.WellFormed := by
  by_cases h : entity ∈ m.entityIds
  · by_cases hf : folder ∈ Folder.idsIn m.folders
    · rw [moveToFolder_of_mem h hf]
      refine hm.of_sameEntities ⟨rfl, rfl, rfl⟩ ?_ hm.views ?_
      · have hids := hm.ids_nodup
        rw [ids_eq] at hids ⊢
        rwa [Folder.idsIn_fileIn, Folder.idsIn_removeIn]
      · intro id hid
        rcases List.mem_cons.mp ((membersIn_move hf).mem_iff.mp hid) with rfl | hid
        · exact h
        · exact hm.members id (List.mem_of_mem_filter hid)
    · rwa [moveToFolder_of_no_folder h hf]
  · rwa [moveToFolder_of_not_mem h]

theorem filedOnce_moveToFolder (hfiled : m.FiledOnce) :
    (moveToFolder folder entity m).2.FiledOnce := by
  by_cases h : entity ∈ m.entityIds
  · by_cases hf : folder ∈ Folder.idsIn m.folders
    · rw [moveToFolder_of_mem h hf, FiledOnce, (membersIn_move hf).nodup_iff, List.nodup_cons]
      exact ⟨by simp, hfiled.filter _⟩
    · rwa [moveToFolder_of_no_folder h hf]
  · rwa [moveToFolder_of_not_mem h]

end

end Model

end ArchChange
