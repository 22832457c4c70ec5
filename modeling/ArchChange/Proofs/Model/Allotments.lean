import ArchChange.Proofs.Model.Operations
/-!
What operations allocate. Each makes one allocation or none; its new id is all that an operation
can add to the ids in the model.
-/
namespace ArchChange.Model

/-- The stem of the ids that an operation allocates, if it allocates any. -/
def Operation.stem? : Operation → Option String
  | createElement _ _ => some "element"
  | createRelationship _ _ _ _ => some "relationship"
  | createView _ => some "view"
  | addToView _ _ _ => some "visual"
  | connectInView _ _ _ _ => some "connection"
  | addFolder _ _ => some "folder"
  | rename _ _ | setProperty _ _ _ | removeProperty _ _ | setDocumentation _ _ | delete _
  | moveToFolder _ _ => none

/-- The operation makes one allocation, with the stem. The model gains the new id at most; if the
operation is not refused it answers with that id, and the model has it on top of those before. -/
structure Operation.Allots (m : Model) (op : Operation) (stem : String) : Prop where
  stem? : op.stem? = some stem
  nextId : (op.run m).nextId = (m.allocate stem).2.nextId
  ids : (op.run m).ids ⊆ (m.allocate stem).1 :: m.ids
  entityIds : (op.run m).entityIds ⊆ (m.allocate stem).1 :: m.entityIds
  answer : ∀ id, op.answer m = .ok (some id) →
    id = (m.allocate stem).1 ∧ (op.run m).ids.Perm (id :: m.ids)

/-- The operation makes no allocation: the model gains no id, and the answer tells none. -/
structure Operation.AllotsNothing (m : Model) (op : Operation) : Prop where
  nextId : (op.run m).nextId = m.nextId
  ids : (op.run m).ids ⊆ m.ids
  entityIds : (op.run m).entityIds ⊆ m.entityIds
  answer : ∀ id, op.answer m ≠ .ok (some id)

theorem map_none_ne {α : Type} (r : Except StoreError α) (id : String) :
    (r.map fun _ => (none : Option String)) ≠ .ok (some id) := by
  cases r <;> simp [Except.map]

variable {m : Model} {id : String}

/-! Operations that leave the last number as it is. -/

theorem nextId_modifyEntity (element : Element → Element)
    (relationship : Relationship → Relationship) (view : View → View) :
    (modifyEntity id element relationship view m).2.nextId = m.nextId := by
  unfold modifyEntity
  split
  · rfl
  · split
    · rfl
    · split <;> rfl

theorem nextId_removeProperty (key : String) (m : Model) :
    (removeProperty id key m).2.nextId = m.nextId := by
  have hn : (modifyProperties id (fun p => p.erase key) m).2.nextId = m.nextId :=
    nextId_modifyEntity _ _ _
  unfold removeProperty
  split
  · next heq => rwa [heq] at hn
  · next heq => rwa [heq] at hn

namespace Operation

variable {op : Operation}

/-- A refused operation that leaves the model as it is. -/
theorem AllotsNothing.of_refused {error : StoreError} (hanswer : op.answer m = .error error)
    (hrun : op.run m = m) : op.AllotsNothing m where
  nextId := by rw [hrun]
  ids := by rw [hrun]; exact List.Subset.refl _
  entityIds := by rw [hrun]; exact List.Subset.refl _
  answer := by
    intro id h
    rw [hanswer] at h
    cases h

/-- An edit of names, documentation or properties. -/
theorem AllotsNothing.of_sameShape (h : SameShape m (op.run m))
    (hn : (op.run m).nextId = m.nextId) (hanswer : ∀ id, op.answer m ≠ .ok (some id)) :
    op.AllotsNothing m :=
  ⟨hn, h.ids ▸ List.Subset.refl _, h.entityIds ▸ List.Subset.refl _, hanswer⟩

end Operation

/-! Deletions and moves. -/

theorem nextId_delete (id : String) (m : Model) : (delete id m).2.nextId = m.nextId := by
  unfold delete
  cases m.entity? id with
  | none => rfl
  | some e =>
    simp only
    split
    · cases e.kind <;> rfl
    · rfl

/-- What is left without an entity is part of what there was. -/
theorem entityIds_without_subset (kind : EntityKind) :
    (m.without id kind).entityIds ⊆ m.entityIds := by
  have hviews : ∀ change : View → View, (∀ v, (change v).id = v.id) →
      (m.views.map change).map View.id = m.viewIds := by
    intro change hc
    simp [viewIds, hc]
  intro x hx
  simp only [entityIds, endpointIds, List.mem_append] at hx ⊢
  cases kind with
  | element type =>
    have hv : (m.without id (.element type)).viewIds = m.viewIds := hviews _ fun _ => rfl
    rw [hv] at hx
    refine hx.imp_left (Or.imp_left ?_)
    exact fun h => (List.filter_sublist.map Element.id).subset h
  | relationship type =>
    have hv : (m.without id (.relationship type)).viewIds = m.viewIds := hviews _ fun _ => rfl
    rw [hv] at hx
    refine hx.imp_left (Or.imp_right ?_)
    exact fun h => (List.filter_sublist.map Relationship.id).subset h
  | view => exact hx.imp_right fun h => (List.filter_sublist.map View.id).subset h

theorem drawnIds_map_subset {change : View → View} (views : List View)
    (h : ∀ v, (change v).drawnIds ⊆ v.drawnIds) :
    (views.map change).flatMap View.drawnIds ⊆ views.flatMap View.drawnIds := by
  intro x hx
  obtain ⟨w, hw, hxw⟩ := List.mem_flatMap.mp hx
  obtain ⟨v, hv, rfl⟩ := List.mem_map.mp hw
  exact List.mem_flatMap.mpr ⟨v, hv, h v hxw⟩

theorem drawnIds_without_subset (kind : EntityKind) :
    (m.without id kind).drawnIds ⊆ m.drawnIds := by
  cases kind with
  | element type =>
    refine drawnIds_map_subset m.views fun v => ?_
    exact (List.filter_sublist.map _ |>.append (List.filter_sublist.map _)).subset
  | relationship type =>
    refine drawnIds_map_subset m.views fun v => ?_
    exact ((List.Sublist.refl _).append (List.filter_sublist.map _)).subset
  | view =>
    intro x hx
    obtain ⟨v, hv, hxv⟩ := List.mem_flatMap.mp hx
    exact List.mem_flatMap.mpr ⟨v, List.mem_of_mem_filter hv, hxv⟩

theorem folders_without (kind : EntityKind) : (m.without id kind).folders = m.folders := by
  cases kind <;> rfl

theorem delete_cases (id : String) (m : Model) :
    (∃ error, delete id m = (.error error, m)) ∨
    ∃ kind, delete id m = (.ok (), { m.without id kind with
      folders := Folder.removeIn id m.folders }) := by
  unfold delete
  cases m.entity? id with
  | none => exact Or.inl ⟨_, rfl⟩
  | some e =>
    simp only
    split
    · exact Or.inr ⟨e.kind, by rw [folders_without]⟩
    · exact Or.inl ⟨_, rfl⟩

namespace Operation

theorem allotsNothing_delete (id : String) (m : Model) : (delete id).AllotsNothing m := by
  rcases delete_cases id m with ⟨error, he⟩ | ⟨kind, he⟩
  · exact .of_refused (by rw [answer, he]; rfl) (by rw [run, he])
  · have hentities : (m.without id kind).entityIds ⊆ m.entityIds := entityIds_without_subset kind
    refine ⟨nextId_delete id m, ?_, by rw [run, he]; exact hentities, map_none_ne _⟩
    rw [run, he, ids_eq, ids_eq, Folder.idsIn_removeIn]
    exact List.append_subset.mpr ⟨List.append_subset.mpr
      ⟨fun _ hx => List.mem_append_left _ (List.mem_append_left _ (hentities hx)),
        fun _ hx => List.mem_append_left _ (List.mem_append_right _
          (drawnIds_without_subset kind hx))⟩, fun _ hx => List.mem_append_right _ hx⟩

theorem allotsNothing_moveToFolder (folder entity : String) (m : Model) :
    (moveToFolder folder entity).AllotsNothing m := by
  by_cases he : entity ∈ m.entityIds
  · by_cases hf : folder ∈ Folder.idsIn m.folders
    · have hmove := moveToFolder_of_mem he hf
      refine ⟨by rw [run, hmove], ?_, by rw [run, hmove]; exact List.Subset.refl _, map_none_ne _⟩
      rw [run, hmove, ids_eq, ids_eq, Folder.idsIn_fileIn, Folder.idsIn_removeIn]
      exact List.Subset.refl _
    · have hmove := moveToFolder_of_no_folder he hf
      exact .of_refused (by rw [answer, hmove]; rfl) (by rw [run, hmove])
  · have hmove : Model.moveToFolder folder entity m = (.error (.notFound entity), m) :=
      moveToFolder_of_not_mem he
    exact .of_refused (by rw [answer, hmove]; rfl) (by rw [run, hmove])

/-! Operations that allocate. -/

theorem allots_createElement (type : ElementType) (name : String) (m : Model) :
    (createElement type name).Allots m "element" where
  stem? := rfl
  nextId := rfl
  ids := ids_createElement.subset
  entityIds := by
    rw [run, Model.entityIds, endpointIds, elementIds_createElement]
    intro x hx
    simp only [List.mem_append, List.mem_cons, Model.entityIds, endpointIds] at hx ⊢
    change (((x ∈ m.elementIds ∨ _) ∨ x ∈ m.relationshipIds) ∨ x ∈ m.viewIds) at hx
    tauto
  answer := by
    rintro id ⟨⟩
    exact ⟨rfl, ids_createElement⟩

theorem allots_createView (name : String) (m : Model) :
    (createView name).Allots m "view" where
  stem? := rfl
  nextId := rfl
  ids := ids_createView.subset
  entityIds := by
    rw [run, Model.entityIds, viewIds_createView]
    intro x hx
    simp only [List.mem_append, List.mem_cons, Model.entityIds] at hx ⊢
    change x ∈ m.endpointIds ∨ x ∈ m.viewIds ∨ _ at hx
    tauto
  answer := by
    rintro id ⟨⟩
    exact ⟨rfl, ids_createView⟩

theorem allots_createRelationship (type : RelationshipType) (source target name : String)
    (m : Model) : (createRelationship type source target name).AllotsNothing m ∨
      (createRelationship type source target name).Allots m "relationship" := by
  by_cases h : m.endpointError? source = none ∧ m.endpointError? target = none
  · have hids := ids_createRelationship type name h.1 h.2
    have he := createRelationship_of_none type name h.1 h.2
    refine Or.inr ⟨rfl, by rw [run, he], hids.subset, ?_, ?_⟩
    · rw [run, entityIds, endpointIds, relationshipIds_createRelationship type name h.1 h.2, he]
      intro x hx
      simp only [List.mem_append, List.mem_cons, entityIds, endpointIds] at hx ⊢
      change ((x ∈ m.elementIds ∨ x ∈ m.relationshipIds ∨ _) ∨ x ∈ m.viewIds) at hx
      tauto
    · intro id hid
      rw [answer, he] at hid
      cases hid
      exact ⟨rfl, hids⟩
  · obtain ⟨error, he⟩ := createRelationship_of_some type name (not_and_or.mp h)
    exact Or.inl (.of_refused (by rw [answer, he]; rfl) (by rw [run, he]))

/-- Something is drawn on a view, under a new id. -/
theorem Allots.of_modifyView {op : Operation} {view stem : String} {change : View → View}
    (hstem : op.stem? = some stem) (hview : view ∈ m.viewIds)
    (hrun : op.run m = (m.allocate stem).2.modifyView view change)
    (hanswer : op.answer m = .ok (some (m.allocate stem).1)) (hc : ∀ v, (change v).id = v.id)
    (hdrawn : ∀ v, (change v).drawnIds.Perm ([(m.allocate stem).1] ++ v.drawnIds)) :
    op.Allots m stem := by
  have hids : (op.run m).ids.Perm ((m.allocate stem).1 :: m.ids) := by
    rw [hrun]
    exact ids_modifyView hview hc hdrawn
  have hentities : (op.run m).entityIds = m.entityIds := by
    rw [hrun]
    exact (sameEntities_modifyView hc).entityIds
  refine ⟨hstem, by rw [hrun]; rfl, hids.subset, ?_, ?_⟩
  · rw [hentities]
    exact List.subset_cons_self _ _
  · intro id hid
    rw [hanswer] at hid
    cases hid
    exact ⟨rfl, hids⟩

theorem allots_addToView (view entity : String) (bounds : Bounds) (m : Model) :
    (addToView view entity bounds).AllotsNothing m ∨
      (addToView view entity bounds).Allots m "visual" := by
  by_cases h : entity ∈ m.elementIds ∧ view ∈ m.viewIds
  · have he := addToView_of_mem bounds h.1 h.2
    exact Or.inr (.of_modifyView rfl h.2 (congrArg Prod.snd he) (by rw [answer, he]; rfl)
      (fun _ => rfl) (View.drawnIds_place _))
  · obtain ⟨error, he⟩ := addToView_of_not_mem bounds (not_and_or.mp h)
    exact Or.inl (.of_refused (by rw [answer, he]; rfl) (by rw [run, he]))

theorem allots_connectInView (view relationship source target : String) (m : Model) :
    (connectInView view relationship source target).AllotsNothing m ∨
      (connectInView view relationship source target).Allots m "connection" := by
  rcases connectInView_cases m view relationship source target with
    ⟨error, he⟩ | ⟨v, hv, -, -, -, he⟩
  · exact Or.inl (.of_refused (by rw [answer, he]; rfl) (by rw [run, he]))
  · exact Or.inr (.of_modifyView rfl (List.mem_map.mpr ⟨v, mem_of_view? hv⟩)
      (congrArg Prod.snd he) (by rw [answer, he]; rfl) (fun _ => rfl) (View.drawnIds_draw _))

/-- A new folder takes its number before its place is looked for. -/
theorem allots_addFolder (parent name : String) (m : Model) :
    (addFolder parent name).Allots m "folder" := by
  rcases addFolder_cases m parent name with ⟨-, he⟩ | ⟨folders, -, h, he⟩
  · refine ⟨rfl, by rw [run, he], ?_, ?_, ?_⟩
    · rw [run, he]
      exact List.subset_cons_self _ m.ids
    · rw [run, he]
      exact List.subset_cons_self _ m.entityIds
    · intro id hid
      rw [answer, he] at hid
      cases hid
  · have hids : ((addFolder parent name).run m).ids.Perm ((m.allocate "folder").1 :: m.ids) := by
      rw [run, he]
      exact ((Folder.idsIn_addFolder h).append_left _).trans List.perm_middle
    refine ⟨rfl, by rw [run, he], hids.subset, ?_, ?_⟩
    · rw [run, he]
      exact List.subset_cons_self _ m.entityIds
    · intro id hid
      rw [answer, he] at hid
      cases hid
      exact ⟨rfl, hids⟩

/-- All that operations do to the number allocated last, to the ids and to what they answer. -/
theorem allots_cases (m : Model) (op : Operation) :
    op.AllotsNothing m ∨ ∃ stem, op.Allots m stem := by
  cases op with
  | createElement type name => exact Or.inr ⟨_, allots_createElement type name m⟩
  | createRelationship type source target name =>
    exact (allots_createRelationship type source target name m).imp_right fun h => ⟨_, h⟩
  | rename id name =>
    exact Or.inl (.of_sameShape ((rename_edits id name).sameShape m)
      (nextId_modifyEntity _ _ _) (map_none_ne _))
  | setProperty id key value =>
    exact Or.inl (.of_sameShape ((setProperty_edits id key value).sameShape m)
      (nextId_modifyEntity _ _ _) (map_none_ne _))
  | removeProperty id key =>
    exact Or.inl (.of_sameShape ((removeProperty_edits id key).sameShape m)
      (nextId_removeProperty key m) (map_none_ne _))
  | setDocumentation id text =>
    exact Or.inl (.of_sameShape ((setDocumentation_edits id text).sameShape m)
      (nextId_modifyEntity _ _ _) (map_none_ne _))
  | delete id => exact Or.inl (allotsNothing_delete id m)
  | createView name => exact Or.inr ⟨_, allots_createView name m⟩
  | addToView view entity bounds =>
    exact (allots_addToView view entity bounds m).imp_right fun h => ⟨_, h⟩
  | connectInView view relationship source target =>
    exact (allots_connectInView view relationship source target m).imp_right fun h => ⟨_, h⟩
  | moveToFolder folder entity => exact Or.inl (allotsNothing_moveToFolder folder entity m)
  | addFolder parent name => exact Or.inr ⟨_, allots_addFolder parent name m⟩

end Operation

end ArchChange.Model
