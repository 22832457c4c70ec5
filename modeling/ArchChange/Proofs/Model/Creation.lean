import ArchChange.Proofs.Model.Edits
/-!
Changes that add something under a new id. Nothing refers to a new id yet, so a relationship
that gets it closes no cycle, and filing it lists it once.
-/
namespace ArchChange.Model

variable {m m' : Model} {id : String}

section

variable (hold : ∀ r x, m'.Attached r x → r = id ∨ m.Attached r x)
  (hnew : ∀ r, ¬ m'.Attached r id)

include hnew

theorem ne_of_transGen_of_new {a b : String} (h : Relation.TransGen m'.Attached a b) :
    b ≠ id := by
  rintro rfl
  cases h with
  | single h => exact hnew _ h
  | tail _ h => exact hnew _ h

include hold

/-- No way between the old ids leads through a relationship that nothing is attached to. -/
theorem transGen_of_new {a b : String} (h : Relation.TransGen m'.Attached a b) (ha : a ≠ id) :
    Relation.TransGen m.Attached a b := by
  induction h with
  | single h => exact .single ((hold _ _ h).resolve_left ha)
  | tail hab hbc ih =>
    exact ih.tail ((hold _ _ hbc).resolve_left (ne_of_transGen_of_new hnew hab))

end

/-- A new relationship that nothing is attached to closes no cycle. -/
theorem Acyclic.of_new (id : String) (hm : m.Acyclic)
    (hold : ∀ r x, m'.Attached r x → r = id ∨ m.Attached r x) (hnew : ∀ r, ¬ m'.Attached r id) :
    m'.Acyclic := by
  intro a hc
  exact hm a (transGen_of_new hold hnew hc (ne_of_transGen_of_new hnew hc))

theorem nodup_ids_of_perm (hm : m.WellFormed) (hid : id ∉ m.ids)
    (hp : m'.ids.Perm (id :: m.ids)) : m'.ids.Nodup := by
  rw [hp.nodup_iff, List.nodup_cons]
  exact ⟨hid, hm.ids_nodup⟩

theorem mem_ids_of_mem_entityIds (h : id ∈ m.entityIds) : id ∈ m.ids := by
  rw [ids_eq]
  exact List.mem_append_left _ (List.mem_append_left _ h)

/-- Filing a new id lists it once. -/
theorem WellFormed.filedOnce_fileIn (hm : m.WellFormed) (hid : id ∉ m.ids) {folder : String}
    (hfolders : m'.folders = Folder.fileIn folder id m.folders) (hf : m.FiledOnce) :
    m'.FiledOnce := by
  rw [FiledOnce, hfolders, (Folder.membersIn_fileIn folder id m.folders).nodup_iff]
  split
  · refine List.nodup_cons.mpr ⟨?_, hf⟩
    intro h
    exact hid (mem_ids_of_mem_entityIds (hm.members id h))
  · exact hf

/-- Filing a new id lists an id that is there. -/
theorem mem_membersIn_fileIn (hm : m.WellFormed) {folder x : String}
    (hx : x ∈ Folder.membersIn (Folder.fileIn folder id m.folders)) :
    x = id ∨ x ∈ m.entityIds := by
  rcases List.mem_append.mp ((Folder.membersIn_fileIn folder id m.folders).mem_iff.mp hx) with
    h | h
  · split at h
    · exact Or.inl (List.mem_singleton.mp h)
    · cases h
  · exact Or.inr (hm.members x h)

/-- A model that gains one entity under a new id, with nothing drawn on it yet and filed like
the others, stays well formed; a new relationship has to join what is there. -/
theorem WellFormed.grow (hm : m.WellFormed) (hid : id ∉ m.ids) (folder : String)
    (hids : m'.ids.Perm (id :: m.ids)) (he : m.elementIds ⊆ m'.elementIds)
    (hr : m.relationshipIds ⊆ m'.relationshipIds) (hv : m.viewIds ⊆ m'.viewIds)
    (hnew : id ∈ m'.entityIds)
    (hrelationships : ∀ r ∈ m'.relationships, r ∈ m.relationships ∨
      r.id = id ∧ r.source ∈ m.endpointIds ∧ r.target ∈ m.endpointIds)
    (hviews : ∀ v ∈ m'.views, v ∈ m.views ∨ v.children = [] ∧ v.connections = [])
    (hfolders : m'.folders = Folder.fileIn folder id m.folders) : m'.WellFormed := by
  have hends : m.endpointIds ⊆ m'.endpointIds := List.append_subset.mpr
    ⟨fun _ h => List.mem_append_left _ (he h), fun _ h => List.mem_append_right _ (hr h)⟩
  have hentities : m.entityIds ⊆ m'.entityIds := List.append_subset.mpr
    ⟨fun _ h => List.mem_append_left _ (hends h), fun _ h => List.mem_append_right _ (hv h)⟩
  have hjoins : ∀ r ∈ m'.relationships, r.source ∈ m.endpointIds ∧ r.target ∈ m.endpointIds := by
    intro r hr
    rcases hrelationships r hr with h | ⟨-, h⟩
    · exact hm.endpoints r h
    · exact h
  have hfresh : id ∉ m.endpointIds := by
    intro h
    exact hid (mem_ids_of_mem_entityIds (List.mem_append_left _ h))
  refine ⟨nodup_ids_of_perm hm hid hids, ?_, hm.acyclic.of_new id ?_ ?_, ?_, ?_⟩
  · intro r hr
    exact ⟨hends (hjoins r hr).1, hends (hjoins r hr).2⟩
  · intro r x h
    obtain ⟨y, hy, rfl, hx⟩ := mem_attached.mp h
    rcases hrelationships y hy with hy | hy
    · exact Or.inr (mem_attached.mpr ⟨y, hy, rfl, hx⟩)
    · exact Or.inl hy.1
  · intro r h
    obtain ⟨y, hy, -, rfl | rfl⟩ := mem_attached.mp h
    · exact hfresh (hjoins y hy).1
    · exact hfresh (hjoins y hy).2
  · intro v hv
    rcases hviews v hv with hv | ⟨hc, hd⟩
    · exact (hm.views v hv).mono he hr
    · exact ⟨by simp [hc], by simp [hd]⟩
  · intro x hx
    rw [hfolders] at hx
    rcases mem_membersIn_fileIn hm hx with rfl | hx
    · exact hnew
    · exact hentities hx

theorem find?_append_singleton {α : Type} (key : α → String) (x : String) (l : List α) (a : α) :
    ((l ++ [a]).find? fun b => key b == x) =
      if x = key a then (l.find? fun b => key b == x).or (some a)
      else l.find? fun b => key b == x := by
  by_cases h : x = key a
  · simp [List.find?_append, h]
  · have hne : ¬ key a = x := fun he => h he.symm
    simp [List.find?_append, h, hne]

theorem kind?_of_not_mem_ids (h : id ∉ m.ids) :
    m.element? id = none ∧ m.relationship? id = none ∧ m.view? id = none := by
  have hn : id ∉ m.entityIds := fun he => h (mem_ids_of_mem_entityIds he)
  simp only [entityIds, endpointIds, List.mem_append, not_or] at hn
  rw [element?_eq_none_iff, relationship?_eq_none_iff, view?_eq_none_iff]
  exact ⟨hn.1.1, hn.1.2, hn.2⟩

/-! A new element. -/

section

variable {type : ElementType} {name : String}

theorem elementIds_createElement :
    (createElement type name m).2.elementIds = m.elementIds ++ [(m.allocate "element").1] := by
  simp [createElement, elementIds, allocate]

theorem ids_createElement :
    (createElement type name m).2.ids.Perm ((m.allocate "element").1 :: m.ids) := by
  have hf : Folder.idsIn (createElement type name m).2.folders = Folder.idsIn m.folders :=
    Folder.idsIn_fileIn _ _ _
  rw [List.perm_iff_count]
  intro x
  rw [ids_eq, entityIds, endpointIds, elementIds_createElement, hf, ids_eq, entityIds, endpointIds]
  change List.count x (m.elementIds ++ _ ++ m.relationshipIds ++ m.viewIds ++ m.drawnIds ++ _) = _
  simp only [List.count_append, List.count_cons, List.count_nil]
  omega

theorem wellFormed_createElement (hm : m.WellFormed) :
    (createElement type name m).2.WellFormed := by
  refine hm.grow (allocate_not_mem m "element") (Folder.idFor type) ids_createElement ?_
    (List.Subset.refl _) (List.Subset.refl _) ?_ (fun _ h => Or.inl h) (fun _ h => Or.inl h) rfl
  · rw [elementIds_createElement]
    exact List.subset_append_left _ _
  · rw [entityIds, endpointIds, elementIds_createElement]
    simp

theorem filedOnce_createElement (hm : m.WellFormed) (hf : m.FiledOnce) :
    (createElement type name m).2.FiledOnce :=
  hm.filedOnce_fileIn (allocate_not_mem m "element") rfl hf

/-- The new id stands for the new element, and all others for what they stood for. -/
theorem kind?_createElement (x : String) : (createElement type name m).2.kind? x =
    if x = (m.allocate "element").1 then some (.element type) else m.kind? x := by
  have he : (createElement type name m).2.element? x = if x = (m.allocate "element").1 then
      (m.element? x).or (some ⟨(m.allocate "element").1, type, name, "", .empty⟩)
      else m.element? x :=
    find?_append_singleton Element.id x _ _
  have hr : (createElement type name m).2.relationship? x = m.relationship? x := rfl
  have hv : (createElement type name m).2.view? x = m.view? x := rfl
  rw [kind?_eq, he, hr, hv, kind?_eq]
  split
  · next hx =>
    rw [hx, (kind?_of_not_mem_ids (allocate_not_mem m "element")).1]
    rfl
  · rfl

end

/-! A new relationship. -/

section

variable (type : RelationshipType) {source target : String} (name : String)

theorem endpointError?_eq_none_iff :
    m.endpointError? id = none ↔ ∃ kind, m.kind? id = some kind ∧ kind ≠ .view := by
  unfold endpointError? kind?
  cases m.entity? id with
  | none => simp
  | some e => simp

theorem WellFormed.endpointError?_eq_none_iff (hm : m.WellFormed) :
    m.endpointError? id = none ↔ id ∈ m.endpointIds := by
  rw [Model.endpointError?_eq_none_iff, hm.mem_endpointIds_iff]

theorem createRelationship_of_none (hs : m.endpointError? source = none)
    (ht : m.endpointError? target = none) :
    createRelationship type source target name m =
      (.ok (m.allocate "relationship").1, { (m.allocate "relationship").2 with
        relationships := m.relationships ++
          [⟨(m.allocate "relationship").1, type, name, source, target, "", .empty⟩]
        folders := Folder.fileIn Folder.idForRelationships (m.allocate "relationship").1
          m.folders }) := by
  simp [createRelationship, hs, ht, allocate]

/-- Refused, a relationship changes nothing. -/
theorem createRelationship_of_some
    (h : m.endpointError? source ≠ none ∨ m.endpointError? target ≠ none) :
    ∃ error, createRelationship type source target name m = (.error error, m) := by
  unfold createRelationship
  cases hs : m.endpointError? source with
  | some error => exact ⟨error, rfl⟩
  | none =>
    cases ht : m.endpointError? target with
    | some error => exact ⟨error, rfl⟩
    | none => simp [hs, ht] at h

variable (hs : m.endpointError? source = none) (ht : m.endpointError? target = none)

include hs ht

theorem links_createRelationship : (createRelationship type source target name m).2.links =
    m.links ++ [((m.allocate "relationship").1, type, source, target)] := by
  rw [createRelationship_of_none type name hs ht]
  simp [links]

theorem relationship?_createRelationship :
    (createRelationship type source target name m).2.relationship?
      (m.allocate "relationship").1 =
      some ⟨(m.allocate "relationship").1, type, name, source, target, "", .empty⟩ := by
  obtain ⟨-, hr, -⟩ := kind?_of_not_mem_ids (allocate_not_mem m "relationship")
  rw [relationship?] at hr
  rw [createRelationship_of_none type name hs ht, relationship?,
    find?_append_singleton Relationship.id, if_pos rfl, hr, Option.none_or]

theorem relationshipIds_createRelationship :
    (createRelationship type source target name m).2.relationshipIds =
      m.relationshipIds ++ [(m.allocate "relationship").1] := by
  rw [relationshipIds_eq_links, links_createRelationship type name hs ht, relationshipIds_eq_links]
  simp

theorem ids_createRelationship : (createRelationship type source target name m).2.ids.Perm
    ((m.allocate "relationship").1 :: m.ids) := by
  have hf : Folder.idsIn (createRelationship type source target name m).2.folders =
      Folder.idsIn m.folders := by
    rw [createRelationship_of_none type name hs ht]
    exact Folder.idsIn_fileIn _ _ _
  rw [List.perm_iff_count]
  intro x
  rw [ids_eq, entityIds, endpointIds, relationshipIds_createRelationship type name hs ht, hf,
    ids_eq, entityIds, endpointIds, createRelationship_of_none type name hs ht]
  change List.count x (m.elementIds ++ (m.relationshipIds ++ _) ++ m.viewIds ++ m.drawnIds ++ _) = _
  simp only [List.count_append, List.count_cons, List.count_nil]
  omega

theorem wellFormed_createRelationship_of_none (hm : m.WellFormed) :
    (createRelationship type source target name m).2.WellFormed := by
  have hids := ids_createRelationship type name hs ht
  have hrelationships := relationshipIds_createRelationship type name hs ht
  rw [createRelationship_of_none type name hs ht] at hids hrelationships ⊢
  refine hm.grow (allocate_not_mem m "relationship") Folder.idForRelationships hids
    (List.Subset.refl _) ?_ (List.Subset.refl _) ?_ ?_ (fun _ h => Or.inl h) rfl
  · rw [hrelationships]
    exact List.subset_append_left _ _
  · rw [entityIds, endpointIds, hrelationships]
    simp
  · intro r hr
    rcases List.mem_append.mp hr with hr | hr
    · exact Or.inl hr
    · rw [List.mem_singleton.mp hr]
      exact Or.inr ⟨rfl, hm.endpointError?_eq_none_iff.mp hs, hm.endpointError?_eq_none_iff.mp ht⟩

/-- The new id stands for the new relationship, and all others for what they stood for. -/
theorem kind?_createRelationship (x : String) :
    (createRelationship type source target name m).2.kind? x =
      if x = (m.allocate "relationship").1 then some (.relationship type) else m.kind? x := by
  rw [createRelationship_of_none type name hs ht]
  have hr := find?_append_singleton Relationship.id x m.relationships
    ⟨(m.allocate "relationship").1, type, name, source, target, "", .empty⟩
  rw [kind?_eq, relationship?, hr, kind?_eq]
  split
  · next hx =>
    obtain ⟨he, hr, -⟩ := kind?_of_not_mem_ids (allocate_not_mem m "relationship")
    change ((m.element? x).map _).or _ = _
    rw [relationship?] at hr
    rw [hx, he, hr]
    rfl
  · rfl

end

theorem wellFormed_createRelationship (hm : m.WellFormed) (type : RelationshipType)
    (source target name : String) :
    (createRelationship type source target name m).2.WellFormed := by
  by_cases h : m.endpointError? source = none ∧ m.endpointError? target = none
  · exact wellFormed_createRelationship_of_none type name h.1 h.2 hm
  · obtain ⟨error, he⟩ := createRelationship_of_some type name (not_and_or.mp h)
    rwa [he]

theorem filedOnce_createRelationship (hm : m.WellFormed) (hf : m.FiledOnce)
    (type : RelationshipType) (source target name : String) :
    (createRelationship type source target name m).2.FiledOnce := by
  by_cases h : m.endpointError? source = none ∧ m.endpointError? target = none
  · rw [createRelationship_of_none type name h.1 h.2]
    exact hm.filedOnce_fileIn (allocate_not_mem m "relationship") rfl hf
  · obtain ⟨error, he⟩ := createRelationship_of_some type name (not_and_or.mp h)
    rwa [he]

/-! A new view. -/

section

variable {name : String}

theorem viewIds_createView :
    (createView name m).2.viewIds = m.viewIds ++ [(m.allocate "view").1] := by
  simp [createView, viewIds, allocate]

theorem ids_createView : (createView name m).2.ids.Perm ((m.allocate "view").1 :: m.ids) := by
  have hf : Folder.idsIn (createView name m).2.folders = Folder.idsIn m.folders :=
    Folder.idsIn_fileIn _ _ _
  have hd : (createView name m).2.drawnIds = m.drawnIds := by
    simp [createView, drawnIds, allocate]
  rw [List.perm_iff_count]
  intro x
  rw [ids_eq, entityIds, viewIds_createView, hf, hd, ids_eq, entityIds]
  change List.count x (m.endpointIds ++ _ ++ m.drawnIds ++ _) = _
  simp only [List.count_append, List.count_cons, List.count_nil]
  omega

theorem wellFormed_createView (hm : m.WellFormed) : (createView name m).2.WellFormed := by
  refine hm.grow (allocate_not_mem m "view") Folder.idForViews ids_createView
    (List.Subset.refl _) (List.Subset.refl _) ?_ ?_ (fun _ h => Or.inl h) ?_ rfl
  · rw [viewIds_createView]
    exact List.subset_append_left _ _
  · rw [entityIds, viewIds_createView]
    simp
  · intro v hv
    rcases List.mem_append.mp hv with hv | hv
    · exact Or.inl hv
    · rw [List.mem_singleton.mp hv]
      exact Or.inr ⟨rfl, rfl⟩

theorem filedOnce_createView (hm : m.WellFormed) (hf : m.FiledOnce) :
    (createView name m).2.FiledOnce :=
  hm.filedOnce_fileIn (allocate_not_mem m "view") rfl hf

/-- The new id stands for the new view, and all others for what they stood for. -/
theorem kind?_createView (x : String) : (createView name m).2.kind? x =
    if x = (m.allocate "view").1 then some .view else m.kind? x := by
  have hv : (createView name m).2.view? x = if x = (m.allocate "view").1 then
      (m.view? x).or (some ⟨(m.allocate "view").1, name, "", .empty, [], []⟩)
      else m.view? x :=
    find?_append_singleton View.id x _ _
  rw [kind?_eq, hv, kind?_eq]
  split
  · next hx =>
    obtain ⟨he, hr, hv⟩ := kind?_of_not_mem_ids (allocate_not_mem m "view")
    change ((m.element? x).map _).or (((m.relationship? x).map _).or _) = _
    rw [hx, he, hr, hv]
    rfl
  · rfl

end

end ArchChange.Model
