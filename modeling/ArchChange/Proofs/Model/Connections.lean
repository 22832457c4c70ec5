import ArchChange.Proofs.Model.Operations
/-!
What connections stand for. On a faithful view each relationship is drawn once at most, from a
visual of its source to a visual of its target. Connections are drawn between any two visuals, so
drawing keeps a model faithful under conditions; every other operation does without, and deleting
does because it takes the connections that touch what is deleted along.
-/
namespace ArchChange

/-- The visual is on the view and shows the entity. -/
def View.Shows (v : View) (visual entity : String) : Prop :=
  ∃ c ∈ v.children, c.id = visual ∧ c.entityId = entity

/-- The view with one more connection. -/
def View.draw (c : Connection) (v : View) : View :=
  { v with connections := v.connections ++ [c] }

/-- The view draws each of the relationships once at most, between visuals of what it joins, and
nothing else. -/
structure View.Faithful (relationships : List Relationship) (v : View) : Prop where
  once : (v.connections.map Connection.relationshipId).Nodup
  joins : ∀ c ∈ v.connections, ∃ r ∈ relationships, r.id = c.relationshipId ∧
    v.Shows c.sourceVisual r.source ∧ v.Shows c.targetVisual r.target

/-- One of the relationships has the id of the given one and joins the same. -/
def Relationship.StaysIn (relationships : List Relationship) (r : Relationship) : Prop :=
  ∃ r' ∈ relationships, r'.id = r.id ∧ r'.source = r.source ∧ r'.target = r.target

theorem Relationship.staysIn_of_mem {relationships : List Relationship} {r : Relationship}
    (h : r ∈ relationships) : r.StaysIn relationships :=
  ⟨r, h, rfl, rfl, rfl⟩

namespace View

variable {rs rs' : List Relationship} {v v' : View}

/-- A view stays faithful while its connections are kept or dropped, the relationships that it draws
stay, and the visuals that are still connected show what they did. -/
theorem Faithful.of_sublist (h : v.Faithful rs) (hsub : v'.connections.Sublist v.connections)
    (hstays : ∀ r ∈ rs, r.id ∈ v'.connections.map Connection.relationshipId → r.StaysIn rs')
    (hshows : ∀ c ∈ v'.connections, ∀ visual ∈ [c.sourceVisual, c.targetVisual], ∀ entity,
      v.Shows visual entity → v'.Shows visual entity) : v'.Faithful rs' where
  once := h.once.sublist (hsub.map _)
  joins := by
    intro c hc
    obtain ⟨r, hr, hid, hsource, htarget⟩ := h.joins c (hsub.subset hc)
    obtain ⟨r', hr', hid', hsource', htarget'⟩ := hstays r hr (hid ▸ List.mem_map_of_mem hc)
    refine ⟨r', hr', hid'.trans hid, ?_, ?_⟩
    · rw [hsource']
      exact hshows c hc _ (by simp) _ hsource
    · rw [htarget']
      exact hshows c hc _ (by simp) _ htarget

/-- What is on a view counts, and not its name. -/
theorem Faithful.of_subset (h : v.Faithful rs) (hconnections : v'.connections = v.connections)
    (hchildren : v.children ⊆ v'.children) (hstays : ∀ r ∈ rs, r.StaysIn rs') :
    v'.Faithful rs' := by
  refine h.of_sublist (hconnections ▸ List.Sublist.refl _) (fun r hr _ => hstays r hr) ?_
  rintro c - visual - entity ⟨child, hchild, hshows⟩
  exact ⟨child, hchildren hchild, hshows⟩

theorem faithful_of_no_connections (h : v.connections = []) : v.Faithful rs :=
  ⟨by simp [h], by simp [h]⟩

end View

namespace Model

/-- Every view is faithful. -/
def Faithful (m : Model) : Prop :=
  ∀ v ∈ m.views, v.Faithful m.relationships

variable {m m' : Model} {id : String}

theorem faithful_new (name : String) : (Model.new name).Faithful := by
  intro v hv
  cases hv

theorem staysIn_of_links (h : m.links ⊆ m'.links) :
    ∀ r ∈ m.relationships, r.StaysIn m'.relationships := by
  intro r hr
  obtain ⟨r', hr', heq⟩ := List.mem_map.mp (h (List.mem_map_of_mem hr))
  simp only [Prod.mk.injEq] at heq
  exact ⟨r', hr', heq.1, heq.2.2.1, heq.2.2.2⟩

/-- New views are empty, and what relationships join stays. -/
theorem Faithful.of_views (h : m.Faithful) (hlinks : m.links ⊆ m'.links)
    (hviews : ∀ v ∈ m'.views, v ∈ m.views ∨ v.connections = []) : m'.Faithful := by
  intro v hv
  rcases hviews v hv with hv | hempty
  · exact (h v hv).of_subset rfl (List.Subset.refl _) (staysIn_of_links hlinks)
  · exact View.faithful_of_no_connections hempty

theorem SameShape.faithful (h : SameShape m m') (hf : m.Faithful) : m'.Faithful := by
  intro v hv
  have hd : (v.id, v.children, v.connections) ∈
      m.views.map fun v => (v.id, v.children, v.connections) := by
    rw [← h.drawings]
    exact List.mem_map_of_mem hv
  obtain ⟨w, hw, heq⟩ := List.mem_map.mp hd
  simp only [Prod.mk.injEq] at heq
  refine (hf w hw).of_subset heq.2.2.symm (heq.2.1 ▸ List.Subset.refl _) (staysIn_of_links ?_)
  exact h.links ▸ List.Subset.refl _

theorem faithful_createElement (h : m.Faithful) (type : ElementType) (name : String) :
    (createElement type name m).2.Faithful :=
  h.of_views (List.Subset.refl _) fun _ hv => Or.inl hv

theorem faithful_createRelationship (h : m.Faithful) (type : RelationshipType)
    (source target name : String) : (createRelationship type source target name m).2.Faithful := by
  by_cases hends : m.endpointError? source = none ∧ m.endpointError? target = none
  · refine h.of_views ?_ ?_
    · rw [links_createRelationship type name hends.1 hends.2]
      exact List.subset_append_left _ _
    · rw [createRelationship_of_none type name hends.1 hends.2]
      exact fun _ hv => Or.inl hv
  · obtain ⟨error, he⟩ := createRelationship_of_some type name (not_and_or.mp hends)
    rwa [he]

theorem faithful_createView (h : m.Faithful) (name : String) :
    (createView name m).2.Faithful := by
  refine h.of_views (List.Subset.refl _) fun v hv => ?_
  rcases List.mem_append.mp hv with hv | hv
  · exact Or.inl hv
  · rw [List.mem_singleton.mp hv]
    exact Or.inr rfl

theorem faithful_moveToFolder (h : m.Faithful) (folder entity : String) :
    (moveToFolder folder entity m).2.Faithful := by
  unfold moveToFolder
  split
  · exact h
  · split <;> exact h

theorem faithful_addFolder (h : m.Faithful) (parent name : String) :
    (addFolder parent name m).2.Faithful := by
  simp only [addFolder]
  split <;> exact h

theorem faithful_addToView (h : m.Faithful) (view entity : String) (bounds : Bounds) :
    (addToView view entity bounds m).2.Faithful := by
  by_cases hadd : entity ∈ m.elementIds ∧ view ∈ m.viewIds
  · rw [addToView_of_mem bounds hadd.1 hadd.2]
    intro v hv
    rcases mem_modifyFirst hv with hv | ⟨w, hw, -, rfl⟩
    · exact h v hv
    · exact (h w hw).of_subset rfl (List.subset_append_left _ _)
        fun _ => Relationship.staysIn_of_mem
  · obtain ⟨error, he⟩ := addToView_of_not_mem bounds (not_and_or.mp hadd)
    rwa [he]

/-- A visual of what is erased goes, and its connections with it, so one that is still connected
stays. -/
theorem Faithful.erase (h : m.Faithful) (id : String) : (m.erase id).Faithful := by
  intro v hv
  obtain ⟨w, hw, rfl⟩ := List.mem_map.mp hv
  refine (h w (List.mem_of_mem_filter hw)).of_sublist
    (List.filter_sublist.trans List.filter_sublist) ?_ ?_
  · intro r hr hdrawn
    obtain ⟨c, hc, hid⟩ := List.mem_map.mp hdrawn
    have hne : r.id ≠ id := by
      rw [← hid]
      simpa using (List.mem_filter.mp hc).2
    exact Relationship.staysIn_of_mem (List.mem_filter.mpr ⟨hr, by simpa using hne⟩)
  · rintro c hc visual hvisual entity ⟨child, hchild, rfl, hentity⟩
    have hends := (List.mem_filter.mp (List.mem_filter.mp hc).1).2
    simp only [Bool.and_eq_true, Bool.not_eq_true', List.contains_eq_mem,
      decide_eq_false_iff_not] at hends
    refine ⟨child, List.mem_filter.mpr ⟨hchild, ?_⟩, rfl, hentity⟩
    rw [bne_iff_ne]
    intro hshown
    have hremoved : child.id ∈ (w.children.filter fun c => c.entityId == id).map Visual.id :=
      List.mem_map_of_mem (List.mem_filter.mpr ⟨hchild, by simpa using hshown⟩)
    rcases List.mem_cons.mp hvisual with heq | hvisual
    · exact hends.1 (heq ▸ hremoved)
    · exact hends.2 (List.mem_singleton.mp hvisual ▸ hremoved)

theorem faithful_delete (hm : m.WellFormed) (h : m.Faithful) (id : String) :
    (delete id m).2.Faithful := by
  by_cases hid : id ∈ m.entityIds
  · by_cases hattached : m.attached id = []
    · rw [hm.delete_eq hid hattached]
      exact h.erase id
    · rwa [delete_of_attached hid hattached]
  · rwa [delete_of_not_mem hid]

/-- Only drawing a connection can make a model unfaithful. -/
theorem Faithful.run (hm : m.WellFormed) (h : m.Faithful) {op : Operation}
    (hop : ∀ view relationship source target, op ≠ .connectInView view relationship source target) :
    (op.run m).Faithful := by
  cases op with
  | createElement type name => exact faithful_createElement h type name
  | createRelationship type source target name =>
    exact faithful_createRelationship h type source target name
  | rename id name => exact ((rename_edits id name).sameShape m).faithful h
  | setProperty id key value => exact ((setProperty_edits id key value).sameShape m).faithful h
  | removeProperty id key => exact ((removeProperty_edits id key).sameShape m).faithful h
  | setDocumentation id text => exact ((setDocumentation_edits id text).sameShape m).faithful h
  | delete id => exact faithful_delete hm h id
  | createView name => exact faithful_createView h name
  | addToView view entity bounds => exact faithful_addToView h view entity bounds
  | connectInView view relationship source target => exact absurd rfl (hop _ _ _ _)
  | moveToFolder folder entity => exact faithful_moveToFolder h folder entity
  | addFolder parent name => exact faithful_addFolder h parent name

theorem OperatesTo.faithful {p : Operation → Prop}
    (hp : ∀ op, p op → ∀ view relationship source target,
      op ≠ .connectInView view relationship source target)
    (h : OperatesTo p m m') (hm : m.WellFormed) (hf : m.Faithful) : m'.Faithful := by
  induction h with
  | refl => exact hf
  | tail hbefore hstep ih =>
    obtain ⟨op, hop, rfl⟩ := hstep
    exact ih.run (OperatesTo.wellFormed hbefore hm) (hp op hop)

theorem view?_draw {v : View} (c : Connection) (hv : m.view? v.id = some v) :
    (m.modifyView v.id (View.draw c)).view? v.id = some (v.draw c) := by
  have hid : ∀ w : View, (w.draw c).id = w.id := fun _ => rfl
  rw [view?_modifyView hid, hv]
  rfl

/-- A connection that is drawn for a relationship which the view does not draw yet, between visuals
of what it joins, keeps the model faithful. -/
theorem Faithful.modifyView_draw (hm : m.WellFormed) (h : m.Faithful) {v : View} {r : Relationship}
    {c : Connection} (hv : m.view? v.id = some v) (hr : r ∈ m.relationships)
    (hc : c.relationshipId = r.id) (hnew : r.id ∉ v.connections.map Connection.relationshipId)
    (hsource : v.Shows c.sourceVisual r.source) (htarget : v.Shows c.targetVisual r.target) :
    (m.modifyView v.id (View.draw c)).Faithful := by
  intro w hw
  rcases mem_modifyFirst hw with hw | ⟨w, hmem, hid, rfl⟩
  · exact h w hw
  · obtain rfl := hm.eq_of_view? hv hmem (by simpa using hid)
    refine ⟨?_, ?_⟩
    · rw [View.draw, List.map_append, List.nodup_append]
      refine ⟨(h w hmem).once, by simp, ?_⟩
      rintro a ha b hb rfl
      have heq : a = c.relationshipId := List.mem_singleton.mp hb
      exact hnew (hc ▸ heq ▸ ha)
    · intro d hd
      rcases List.mem_append.mp hd with hd | hd
      · exact (h w hmem).joins d hd
      · rw [List.mem_singleton.mp hd]
        exact ⟨r, hr, hc.symm, hsource, htarget⟩

/-- Drawing a relationship that the view does not draw yet, between visuals of what it joins. It
fails and changes nothing, or the view has one connection more and the model is faithful still. -/
theorem Faithful.connectInView (hm : m.WellFormed) (h : m.Faithful) {v : View} {r : Relationship}
    {source target : String} (hv : m.view? v.id = some v) (hr : r ∈ m.relationships)
    (hnew : r.id ∉ v.connections.map Connection.relationshipId) (hsource : v.Shows source r.source)
    (htarget : v.Shows target r.target) :
    (∃ error, connectInView v.id r.id source target m = (.error error, m)) ∨
    ∃ c m', connectInView v.id r.id source target m = (.ok c.id, m') ∧ c.relationshipId = r.id ∧
      m'.WellFormed ∧ m'.Faithful ∧ m'.relationships = m.relationships ∧
      m'.view? v.id = some (v.draw c) := by
  rcases connectInView_cases m v.id r.id source target with herror | ⟨w, hw, -, -, -, hdrawn⟩
  · exact Or.inl herror
  · obtain rfl : w = v := Option.some.inj (hw.symm.trans hv)
    have hm' := wellFormed_connectInView hm w.id r.id source target
    rw [hdrawn] at hm'
    refine Or.inr ⟨⟨(m.allocate "connection").1, r.id, source, target⟩, _, hdrawn, rfl, hm', ?_,
      rfl, view?_draw _ hv⟩
    exact Faithful.modifyView_draw (hm.allocate "connection") h hv hr rfl hnew hsource htarget

end Model

end ArchChange
