import ArchChange.Proofs.Model.Creation
/-!
Changes that draw something on a view, and new folders. Both use up an id and leave the entities
as they are.
-/
namespace ArchChange

/-- The ids of what is drawn on a view. -/
def View.drawnIds (v : View) : List String :=
  v.children.map Visual.id ++ v.connections.map Connection.id

theorem View.drawnIds_place (c : Visual) (v : View) :
    ({ v with children := v.children ++ [c] } : View).drawnIds.Perm ([c.id] ++ v.drawnIds) := by
  simp only [View.drawnIds, List.map_append, List.map_cons, List.map_nil]
  exact List.perm_append_comm.append_right _

theorem View.drawnIds_draw (c : Connection) (v : View) :
    ({ v with connections := v.connections ++ [c] } : View).drawnIds.Perm
      ([c.id] ++ v.drawnIds) := by
  simp only [View.drawnIds, List.map_append, List.map_cons, List.map_nil]
  rw [← List.append_assoc]
  exact List.perm_append_comm

theorem View.missing?_eq_none_iff {v : View} {visuals : List String} :
    v.missing? visuals = none ↔ ∀ id ∈ visuals, id ∈ v.childIds := by
  simp [missing?, childIds, List.find?_eq_none]

namespace Model

variable {m : Model} {view id : String}

theorem exists_view_of_mem (h : view ∈ m.viewIds) : ∃ v ∈ m.views, (v.id == view) = true := by
  obtain ⟨v, hv, rfl⟩ := List.mem_map.mp h
  exact ⟨v, hv, by simp⟩

theorem sameEntities_modifyView {change : View → View} (hc : ∀ v, (change v).id = v.id) :
    SameEntities m (m.modifyView view change) :=
  ⟨rfl, rfl, map_modifyFirst hc _⟩

theorem view?_modifyView {change : View → View} (hc : ∀ v, (change v).id = v.id) :
    (m.modifyView view change).view? view = (m.view? view).map change := by
  refine find?_modifyFirst ?_ m.views
  intro v
  rw [hc]

theorem mem_of_view? {v : View} (hv : m.view? view = some v) : v ∈ m.views ∧ v.id = view :=
  ⟨List.mem_of_find?_eq_some hv, by simpa using List.find?_some hv⟩

/-- Ids of views are unique, so a view with the id that was looked up is the one that was found. -/
theorem WellFormed.eq_of_view? (hm : m.WellFormed) {v w : View} (hv : m.view? view = some v)
    (hw : w ∈ m.views) (hid : w.id = view) : w = v :=
  List.inj_on_of_nodup_map hm.viewIds_nodup hw (mem_of_view? hv).1
    (hid.trans (mem_of_view? hv).2.symm)

/-- What is drawn on a view comes on top of the ids in the model. -/
theorem ids_modifyView (h : view ∈ m.viewIds) {change : View → View}
    (hc : ∀ v, (change v).id = v.id)
    (hdrawn : ∀ v, (change v).drawnIds.Perm ([id] ++ v.drawnIds)) :
    (m.modifyView view change).ids.Perm (id :: m.ids) := by
  have hperm : (m.modifyView view change).drawnIds.Perm ([id] ++ m.drawnIds) :=
    flatMap_modifyFirst hdrawn (exists_view_of_mem h)
  rw [ids_eq, ids_eq, (sameEntities_modifyView hc).entityIds]
  have hleft := (hperm.append_left m.entityIds).trans (List.perm_append_comm_assoc _ _ _)
  exact hleft.append_right _

/-- A change of a view that draws one thing more, under a new id, and between what there is. -/
theorem WellFormed.modifyView (hm : m.WellFormed) (hid : id ∉ m.ids) (h : view ∈ m.viewIds)
    {change : View → View} (hc : ∀ v, (change v).id = v.id)
    (hdrawn : ∀ v, (change v).drawnIds.Perm ([id] ++ v.drawnIds))
    (hsound : ∀ v ∈ m.views, v.id = view → v.Sound m.elementIds m.relationshipIds →
      (change v).Sound m.elementIds m.relationshipIds) :
    (m.modifyView view change).WellFormed := by
  refine hm.of_sameEntities (sameEntities_modifyView hc)
    (nodup_ids_of_perm hm hid (ids_modifyView h hc hdrawn)) ?_ hm.members
  intro v hv
  rcases mem_modifyFirst hv with hv | ⟨w, hw, hid, rfl⟩
  · exact hm.views v hv
  · exact hsound w hw (by simpa using hid) (hm.views w hw)

/-- The id that was allocated last plays no part in being well formed. -/
theorem WellFormed.allocate (hm : m.WellFormed) (stem : String) :
    (m.allocate stem).2.WellFormed :=
  ⟨hm.ids_nodup, hm.endpoints, hm.acyclic, hm.views, hm.members⟩

/-- A view that was there before an id was allocated is still there, so the second look-up never
misses. -/
theorem addedToView_of_mem (h : view ∈ m.viewIds) (stem : String) (add : View → View) :
    addedToView id view add (m.allocate stem).2 =
      (.ok id, (m.allocate stem).2.modifyView view add) := by
  have hview : ((m.allocate stem).2.view? view).isSome := view?_isSome_iff.mpr h
  rw [addedToView, if_neg (by simpa using Option.isSome_iff_ne_none.mp hview)]

/-! Visuals. -/

section

variable {entity : String} (bounds : Bounds)

theorem placedError?_eq_none_iff : m.placedError? entity = none ↔ entity ∈ m.elementIds := by
  rw [mem_elementIds_iff]
  unfold placedError? kind?
  cases m.entity? entity with
  | none => simp
  | some e =>
    obtain ⟨eid, name, kind⟩ := e
    cases kind <;> simp

theorem addToView_of_mem (he : entity ∈ m.elementIds) (hv : view ∈ m.viewIds) :
    addToView view entity bounds m = (.ok (m.allocate "visual").1,
      (m.allocate "visual").2.modifyView view fun v =>
        { v with children := v.children ++ [⟨(m.allocate "visual").1, entity, bounds⟩] }) := by
  obtain ⟨v, hs⟩ := Option.isSome_iff_exists.mp (view?_isSome_iff.mpr hv)
  simp [addToView, placedError?_eq_none_iff.mpr he, hs, addedToView_of_mem hv]

/-- A visual is on the view that it was placed on. -/
theorem exists_view_addToView (he : entity ∈ m.elementIds) (hv : view ∈ m.viewIds) :
    ∃ v, (addToView view entity bounds m).2.view? view = some v ∧
      ⟨(m.allocate "visual").1, entity, bounds⟩ ∈ v.children := by
  obtain ⟨v, hs⟩ := Option.isSome_iff_exists.mp (view?_isSome_iff.mpr hv)
  have hs' : (m.allocate "visual").2.view? view = some v := hs
  rw [addToView_of_mem bounds he hv]
  refine ⟨_, view?_modifyView ?_ |>.trans (congrArg (Option.map _) hs'), ?_⟩
  · intro v
    rfl
  · exact List.mem_append_right _ List.mem_cons_self

/-- Refused, a visual changes nothing. -/
theorem addToView_of_not_mem (h : entity ∉ m.elementIds ∨ view ∉ m.viewIds) :
    ∃ error, addToView view entity bounds m = (.error error, m) := by
  unfold addToView
  cases he : m.placedError? entity with
  | some error => exact ⟨error, rfl⟩
  | none =>
    have hv : m.view? view = none := by
      rw [view?_eq_none_iff]
      exact h.resolve_left (not_not.mpr (placedError?_eq_none_iff.mp he))
    exact ⟨_, by simp only [hv]; rfl⟩

theorem sameEntities_addToView (he : entity ∈ m.elementIds) (hv : view ∈ m.viewIds) :
    SameEntities m (addToView view entity bounds m).2 := by
  rw [addToView_of_mem bounds he hv]
  refine ⟨rfl, rfl, ?_⟩
  apply map_modifyFirst
  intro v
  rfl

theorem wellFormed_addToView (hm : m.WellFormed) :
    (addToView view entity bounds m).2.WellFormed := by
  by_cases h : entity ∈ m.elementIds ∧ view ∈ m.viewIds
  · rw [addToView_of_mem bounds h.1 h.2]
    refine (hm.allocate "visual").modifyView (allocate_not_mem m "visual") h.2 (fun _ => rfl)
      (View.drawnIds_place _) ?_
    intro v _ _ hs
    refine ⟨?_, ?_⟩
    · intro c hc
      rcases List.mem_append.mp hc with hc | hc
      · exact hs.visuals c hc
      · rw [List.mem_singleton.mp hc]
        exact h.1
    · intro c hc
      obtain ⟨hr, hsource, htarget⟩ := hs.connections c hc
      simp only [View.childIds, List.map_append, List.mem_append]
      exact ⟨hr, Or.inl hsource, Or.inl htarget⟩
  · obtain ⟨error, he⟩ := addToView_of_not_mem bounds (not_and_or.mp h)
    rwa [he]

theorem folders_addToView : (addToView view entity bounds m).2.folders = m.folders := by
  by_cases h : entity ∈ m.elementIds ∧ view ∈ m.viewIds
  · rw [addToView_of_mem bounds h.1 h.2]
    rfl
  · obtain ⟨error, he⟩ := addToView_of_not_mem bounds (not_and_or.mp h)
    rw [he]

end

/-! Connections. -/

section

variable {relationship source target : String}

theorem connectInView_of_mem {v : View} (hr : relationship ∈ m.relationshipIds)
    (hv : m.view? view = some v) (hs : source ∈ v.childIds) (ht : target ∈ v.childIds) :
    connectInView view relationship source target m = (.ok (m.allocate "connection").1,
      (m.allocate "connection").2.modifyView view fun v => { v with
        connections := v.connections ++
          [⟨(m.allocate "connection").1, relationship, source, target⟩] }) := by
  obtain ⟨r, hrel⟩ := Option.isSome_iff_exists.mp (relationship?_isSome_iff.mpr hr)
  have hmissing : v.missing? [source, target] = none :=
    View.missing?_eq_none_iff.mpr (by simp [hs, ht])
  have hview : view ∈ m.viewIds := List.mem_map.mpr ⟨v, mem_of_view? hv⟩
  simp [connectInView, hrel, hv, hmissing, addedToView_of_mem hview]

/-- A connection is drawn between two visuals of the view that it is drawn on, or not at all. -/
theorem connectInView_cases (m : Model) (view relationship source target : String) :
    (∃ error, connectInView view relationship source target m = (.error error, m)) ∨
    ∃ v, m.view? view = some v ∧ relationship ∈ m.relationshipIds ∧ source ∈ v.childIds ∧
      target ∈ v.childIds ∧
      connectInView view relationship source target m = (.ok (m.allocate "connection").1,
        (m.allocate "connection").2.modifyView view fun v => { v with
          connections := v.connections ++
            [⟨(m.allocate "connection").1, relationship, source, target⟩] }) := by
  cases hr : m.relationship? relationship with
  | none => exact Or.inl ⟨.notFound relationship, by simp [connectInView, hr]⟩
  | some r =>
    cases hv : m.view? view with
    | none => exact Or.inl ⟨.viewNotFound view, by simp [connectInView, hr, hv]⟩
    | some v =>
      cases hmissing : v.missing? [source, target] with
      | some visual =>
        exact Or.inl ⟨.visualNotOnView view visual, by simp [connectInView, hr, hv, hmissing]⟩
      | none =>
        have hmem := View.missing?_eq_none_iff.mp hmissing
        have hrel := relationship?_isSome_iff.mp (Option.isSome_of_eq_some hr)
        have hs : source ∈ v.childIds := hmem _ (by simp)
        have ht : target ∈ v.childIds := hmem _ (by simp)
        exact Or.inr ⟨v, rfl, hrel, hs, ht, connectInView_of_mem hrel hv hs ht⟩

theorem wellFormed_connectInView (hm : m.WellFormed) (view relationship source target : String) :
    (connectInView view relationship source target m).2.WellFormed := by
  rcases connectInView_cases m view relationship source target with
    ⟨error, he⟩ | ⟨v, hv, hr, hs, ht, he⟩
  · rwa [he]
  · rw [he]
    refine (hm.allocate "connection").modifyView (allocate_not_mem m "connection")
      (List.mem_map.mpr ⟨v, mem_of_view? hv⟩) (fun _ => rfl) (View.drawnIds_draw _) ?_
    intro w hw hid hsound
    obtain rfl := hm.eq_of_view? hv hw hid
    refine ⟨hsound.visuals, ?_⟩
    intro c hc
    rcases List.mem_append.mp hc with hc | hc
    · exact hsound.connections c hc
    · rw [List.mem_singleton.mp hc]
      exact ⟨hr, hs, ht⟩

theorem folders_connectInView (m : Model) (view relationship source target : String) :
    (connectInView view relationship source target m).2.folders = m.folders := by
  rcases connectInView_cases m view relationship source target with
    ⟨error, he⟩ | ⟨v, -, -, -, -, he⟩
  · rw [he]
  · rw [he]
    rfl

end

/-! Folders. -/

/-- A folder is put inside another one, or its number is used up in vain. -/
theorem addFolder_cases (m : Model) (parent name : String) :
    (parent ∉ Folder.idsIn m.folders ∧ addFolder parent name m =
      (.error (.folderNotFound parent), (m.allocate "folder").2)) ∨
    ∃ folders, parent ∈ Folder.idsIn m.folders ∧
      Folder.modifyIn? parent (Folder.addFolder ⟨(m.allocate "folder").1, name, [], []⟩) m.folders =
        some folders ∧
      addFolder parent name m =
        (.ok (m.allocate "folder").1, { (m.allocate "folder").2 with folders }) := by
  have hfolders : (m.allocate "folder").2.folders = m.folders := rfl
  cases h : Folder.modifyIn? parent (Folder.addFolder ⟨(m.allocate "folder").1, name, [], []⟩)
      m.folders with
  | none =>
    refine Or.inl ⟨?_, by simp only [addFolder, hfolders, h]⟩
    rw [← Folder.modifyIn?_isSome_iff, h]
    exact Bool.false_ne_true
  | some folders =>
    refine Or.inr ⟨folders, Folder.modifyIn?_isSome_iff.mp (by rw [h]; rfl), rfl, ?_⟩
    simp only [addFolder, hfolders, h]

/-- A new folder, and also a number used up in vain, leaves all else as it is. -/
theorem wellFormed_addFolder (hm : m.WellFormed) (parent name : String) :
    (addFolder parent name m).2.WellFormed := by
  rcases addFolder_cases m parent name with ⟨-, he⟩ | ⟨folders, -, h, he⟩
  · rw [he]
    exact hm.allocate "folder"
  · rw [he]
    have hperm := Folder.membersIn_addFolder h
    refine hm.of_sameEntities ⟨rfl, rfl, rfl⟩ ?_ hm.views ?_
    · refine nodup_ids_of_perm hm (allocate_not_mem m "folder") ?_
      exact ((Folder.idsIn_addFolder h).append_left _).trans List.perm_middle
    · intro x hx
      exact hm.members x (hperm.mem_iff.mp hx)

theorem filedOnce_addFolder (hf : m.FiledOnce) (parent name : String) :
    (addFolder parent name m).2.FiledOnce := by
  rcases addFolder_cases m parent name with ⟨-, he⟩ | ⟨folders, -, h, he⟩
  · rw [he]
    exact hf
  · rw [he]
    exact (Folder.membersIn_addFolder h).nodup_iff.mpr hf

end Model

end ArchChange
