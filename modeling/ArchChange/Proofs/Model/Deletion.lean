import ArchChange.Proofs.Model.Cascade
import ArchChange.Proofs.Model.Edits
/-!
Deletion. In a well-formed model an id belongs to one entity, so deleting it is taking the id
away wherever it stands; a list of ids in which each stands after what is attached to it can be
deleted in order.
-/
namespace ArchChange

namespace View

variable {v : View} {id : String} {elements relationships : List String}

theorem withoutElement_eq_self (h : ∀ c ∈ v.children, c.entityId ≠ id) :
    v.withoutElement id = v := by
  have hkept : (v.children.filter fun c => c.entityId != id) = v.children :=
    List.filter_eq_self.mpr fun c hc => by simpa using h c hc
  have hremoved : (v.children.filter fun c => c.entityId == id) = [] :=
    List.filter_eq_nil_iff.mpr fun c hc => by simpa using h c hc
  simp [withoutElement, hkept, hremoved]

theorem withoutRelationship_eq_self (h : ∀ c ∈ v.connections, c.relationshipId ≠ id) :
    v.withoutRelationship id = v := by
  have hkept : (v.connections.filter fun c => c.relationshipId != id) = v.connections :=
    List.filter_eq_self.mpr fun c hc => by simpa using h c hc
  simp [withoutRelationship, hkept]

/-- The view without all that shows an entity. -/
def erase (id : String) (v : View) : View :=
  (v.withoutElement id).withoutRelationship id

@[simp] theorem erase_id (v : View) : (v.erase id).id = v.id := rfl

theorem Sound.erase_eq_withoutElement (hv : v.Sound elements relationships)
    (h : id ∉ relationships) : v.erase id = v.withoutElement id := by
  apply withoutRelationship_eq_self
  rintro c hc rfl
  exact h (hv.connections c (List.mem_of_mem_filter hc)).1

theorem Sound.erase_eq_withoutRelationship (hv : v.Sound elements relationships)
    (h : id ∉ elements) : v.erase id = v.withoutRelationship id := by
  rw [View.erase, withoutElement_eq_self]
  rintro c hc rfl
  exact h (hv.visuals c hc)

theorem Sound.erase (hv : v.Sound elements relationships) :
    (v.erase id).Sound (elements.filter fun x => x != id)
      (relationships.filter fun x => x != id) := by
  have hkept : ∀ x ∈ v.childIds,
      x ∉ (v.children.filter fun c => c.entityId == id).map Visual.id →
      x ∈ (v.erase id).childIds := by
    intro x hx hn
    obtain ⟨c, hc, rfl⟩ := List.mem_map.mp hx
    refine List.mem_map.mpr ⟨c, List.mem_filter.mpr ⟨hc, ?_⟩, rfl⟩
    rw [bne_iff_ne]
    intro he
    exact hn (List.mem_map_of_mem (List.mem_filter.mpr ⟨hc, by simpa using he⟩))
  constructor
  · intro c hc
    obtain ⟨hc, hne⟩ := List.mem_filter.mp hc
    exact List.mem_filter.mpr ⟨hv.visuals c hc, hne⟩
  · intro c hc
    obtain ⟨hc, hne⟩ := List.mem_filter.mp hc
    obtain ⟨hc, hends⟩ := List.mem_filter.mp hc
    obtain ⟨hr, hs, ht⟩ := hv.connections c hc
    simp only [Bool.and_eq_true, Bool.not_eq_true', List.contains_eq_mem,
      decide_eq_false_iff_not] at hends
    exact ⟨List.mem_filter.mpr ⟨hr, hne⟩, hkept _ hs hends.1, hkept _ ht hends.2⟩

end View

namespace Model

/-- The model without an id wherever it stands. -/
def erase (m : Model) (id : String) : Model :=
  { m with
    elements := m.elements.filter fun e => e.id != id
    relationships := m.relationships.filter fun r => r.id != id
    views := (m.views.filter fun v => v.id != id).map (View.erase id)
    folders := Folder.removeIn id m.folders }

variable {m : Model} {id : String}

theorem elementIds_erase : (m.erase id).elementIds = m.elementIds.filter fun x => x != id := by
  rw [elementIds, elementIds, List.filter_map]
  rfl

theorem relationshipIds_erase :
    (m.erase id).relationshipIds = m.relationshipIds.filter fun x => x != id := by
  rw [relationshipIds, relationshipIds, List.filter_map]
  rfl

theorem viewIds_erase : (m.erase id).viewIds = m.viewIds.filter fun x => x != id := by
  rw [viewIds, viewIds, List.filter_map]
  simp [erase, Function.comp_def]

theorem endpointIds_erase : (m.erase id).endpointIds = m.endpointIds.filter fun x => x != id := by
  rw [endpointIds, elementIds_erase, relationshipIds_erase, endpointIds, List.filter_append]

theorem entityIds_erase : (m.erase id).entityIds = m.entityIds.filter fun x => x != id := by
  rw [entityIds, endpointIds_erase, viewIds_erase, entityIds, List.filter_append]

theorem mem_entityIds_erase {x : String} :
    x ∈ (m.erase id).entityIds ↔ x ∈ m.entityIds ∧ x ≠ id := by
  rw [entityIds_erase, List.mem_filter, bne_iff_ne]

@[simp] theorem links_erase : (m.erase id).links = m.links.filter fun l => l.1 != id := by
  rw [links, links, List.filter_map]
  rfl

theorem attached_erase (x : String) :
    (m.erase id).attached x = (m.attached x).filter fun r => r != id := by
  rw [attached_eq_links, links_erase, attached_eq_links, List.filter_map, List.filter_filter,
    List.filter_filter]
  congr 1
  apply List.filter_congr
  intro l _
  simp [Bool.and_comm]

theorem find?_filter_ne {α : Type} (key : α → String) (x : String) (l : List α) :
    ((l.filter fun a => key a != id).find? fun a => key a == x) =
      if x = id then none else l.find? fun a => key a == x := by
  rw [List.find?_filter]
  split
  · next h =>
    rw [List.find?_eq_none]
    intro a _
    simp [h]
  · next h =>
    congr 1
    funext a
    by_cases ha : key a = x <;> simp [ha, h]

theorem kind?_erase (x : String) :
    (m.erase id).kind? x = if x = id then none else m.kind? x := by
  have he : (m.erase id).element? x = if x = id then none else m.element? x :=
    find?_filter_ne Element.id x m.elements
  have hr : (m.erase id).relationship? x = if x = id then none else m.relationship? x :=
    find?_filter_ne Relationship.id x m.relationships
  have hv : (m.erase id).view? x = (if x = id then none else m.view? x).map (View.erase id) := by
    rw [view?, erase, List.find?_map]
    exact congrArg (Option.map (View.erase id)) (find?_filter_ne View.id x m.views)
  rw [kind?_eq, he, hr, hv, kind?_eq]
  split <;> simp [Function.comp_def]

theorem ids_erase_sublist : (m.erase id).ids.Sublist m.ids := by
  have hdrawn : ∀ vs : List View, ((vs.filter fun v => v.id != id).map (View.erase id)).flatMap
      (fun v => v.children.map Visual.id ++ v.connections.map Connection.id) |>.Sublist
      (vs.flatMap fun v => v.children.map Visual.id ++ v.connections.map Connection.id) := by
    intro vs
    induction vs with
    | nil => exact List.Sublist.refl _
    | cons v vs ih =>
      rw [List.flatMap_cons, List.filter_cons]
      split
      · rw [List.map_cons, List.flatMap_cons]
        have hc : (v.erase id).connections.Sublist v.connections :=
          List.filter_sublist.trans List.filter_sublist
        exact ((List.filter_sublist.map _).append (hc.map _)).append ih
      · exact ih.trans (List.sublist_append_right _ _)
  rw [ids_eq, entityIds_erase, ids_eq]
  refine (List.filter_sublist.append (hdrawn m.views)).append ?_
  rw [erase, Folder.idsIn_removeIn]

/-- An entity that nothing is attached to can be taken away. -/
theorem WellFormed.erase (hm : m.WellFormed) (ha : m.attached id = []) :
    (m.erase id).WellFormed := by
  have hends : ∀ r ∈ m.relationships, r.source ≠ id ∧ r.target ≠ id := by
    intro r hr
    have hn : r.id ∉ m.attached id := by simp [ha]
    rw [mem_attached] at hn
    constructor
    · intro he
      exact hn ⟨r, hr, rfl, Or.inl he⟩
    · intro he
      exact hn ⟨r, hr, rfl, Or.inr he⟩
  refine ⟨hm.ids_nodup.sublist ids_erase_sublist, ?_, hm.acyclic.mono ?_, ?_, ?_⟩
  · intro r hr
    have hr := List.mem_of_mem_filter hr
    rw [endpointIds_erase]
    obtain ⟨hs, ht⟩ := hm.endpoints r hr
    exact ⟨List.mem_filter.mpr ⟨hs, by simpa using (hends r hr).1⟩,
      List.mem_filter.mpr ⟨ht, by simpa using (hends r hr).2⟩⟩
  · intro r x h
    rw [Attached, attached_erase] at h
    exact List.mem_of_mem_filter h
  · intro v hv
    obtain ⟨w, hw, rfl⟩ := List.mem_map.mp hv
    rw [elementIds_erase, relationshipIds_erase]
    exact (hm.views w (List.mem_of_mem_filter hw)).erase
  · intro x hx
    rw [Model.erase, Folder.membersIn_removeIn] at hx
    obtain ⟨hx, hne⟩ := List.mem_filter.mp hx
    exact mem_entityIds_erase.mpr ⟨hm.members x hx, by simpa using hne⟩

theorem filedOnce_erase (hf : m.FiledOnce) : (m.erase id).FiledOnce := by
  rw [FiledOnce, Model.erase, Folder.membersIn_removeIn]
  exact hf.filter _

theorem filter_ne_eq_self {α : Type} {key : α → String} {l : List α} (h : id ∉ l.map key) :
    (l.filter fun a => key a != id) = l := by
  refine List.filter_eq_self.mpr ?_
  intro a ha
  rw [bne_iff_ne]
  rintro rfl
  exact h (List.mem_map_of_mem ha)

/-- In a well-formed model an entity is taken away by the clauses of its own kind alone. -/
theorem WellFormed.without_eq_erase (hm : m.WellFormed) {kind : EntityKind}
    (hk : m.kind? id = some kind) : { m.without id kind with
      folders := Folder.removeIn id m.folders } = m.erase id := by
  cases kind with
  | element type =>
    have he : id ∈ m.elementIds := mem_elementIds_iff.mpr ⟨type, hk⟩
    have hr : id ∉ m.relationshipIds := fun hr => hm.not_element_of_relationship hr he
    have hv : id ∉ m.viewIds := fun hv => hm.not_endpoint_of_view hv (List.mem_append_left _ he)
    have hmap : m.views.map (View.erase id) = m.views.map (View.withoutElement id) :=
      List.map_congr_left fun v h => (hm.views v h).erase_eq_withoutElement hr
    rw [Model.erase, filter_ne_eq_self hr, filter_ne_eq_self hv, hmap]
    rfl
  | relationship type =>
    have hr : id ∈ m.relationshipIds := kind?_eq_relationship ⟨type, hk⟩
    have he : id ∉ m.elementIds := hm.not_element_of_relationship hr
    have hv : id ∉ m.viewIds := fun hv => hm.not_endpoint_of_view hv (List.mem_append_right _ hr)
    have hmap : m.views.map (View.erase id) = m.views.map (View.withoutRelationship id) :=
      List.map_congr_left fun v h => (hm.views v h).erase_eq_withoutRelationship he
    rw [Model.erase, filter_ne_eq_self he, filter_ne_eq_self hv, hmap]
    rfl
  | view =>
    have hends := hm.not_endpoint_of_view (kind?_eq_view hk)
    rw [endpointIds, List.mem_append, not_or] at hends
    have hmap : (m.views.filter fun v => v.id != id).map (View.erase id) =
        m.views.filter fun v => v.id != id := by
      refine (List.map_congr_left ?_).trans (List.map_id _)
      intro v hv
      have hsound := hm.views v (List.mem_of_mem_filter hv)
      rw [hsound.erase_eq_withoutElement hends.2, View.withoutElement_eq_self]
      · rfl
      · rintro c hc rfl
        exact hends.1 (hsound.visuals c hc)
    rw [Model.erase, filter_ne_eq_self hends.1, filter_ne_eq_self hends.2, hmap]
    rfl

theorem delete_of_not_mem (h : id ∉ m.entityIds) : delete id m = (.error (.notFound id), m) := by
  simp [delete, entity?_eq_none_iff.mpr h]

theorem delete_of_attached (hid : id ∈ m.entityIds) (ha : m.attached id ≠ []) :
    delete id m = (.error (.stillConnected id (m.attached id).length), m) := by
  obtain ⟨e, he⟩ := Option.isSome_iff_exists.mp (entity?_isSome_iff.mpr hid)
  unfold delete
  split
  · next hn =>
    rw [hn] at he
    cases he
  · split
    · next hl => exact absurd (List.length_eq_zero_iff.mp hl) ha
    · rfl

/-- Deleting an entity that nothing is attached to takes its id away wherever it stands. -/
theorem WellFormed.delete_eq (hm : m.WellFormed) (hid : id ∈ m.entityIds)
    (ha : m.attached id = []) : delete id m = (.ok (), m.erase id) := by
  obtain ⟨e, he⟩ := Option.isSome_iff_exists.mp (entity?_isSome_iff.mpr hid)
  have hk : m.kind? id = some e.kind := by rw [kind?, he, Option.map_some]
  have hf : (m.without id e.kind).folders = m.folders := by cases e.kind <;> rfl
  rw [← hm.without_eq_erase hk]
  simp [delete, he, ha, hf]

/-- A deletion that fails changes nothing, and one that succeeds leaves nothing dangling. -/
theorem wellFormed_delete (hm : m.WellFormed) : (delete id m).2.WellFormed := by
  by_cases hid : id ∈ m.entityIds
  · by_cases ha : m.attached id = []
    · rw [hm.delete_eq hid ha]
      exact hm.erase ha
    · rwa [delete_of_attached hid ha]
  · rwa [delete_of_not_mem hid]

theorem filedOnce_delete (hm : m.WellFormed) (hf : m.FiledOnce) : (delete id m).2.FiledOnce := by
  by_cases hid : id ∈ m.entityIds
  · by_cases ha : m.attached id = []
    · rw [hm.delete_eq hid ha]
      exact filedOnce_erase hf
    · rwa [delete_of_attached hid ha]
  · rwa [delete_of_not_mem hid]

/-! Deleting a list of ids. -/

/-- Each of the ids belongs to an entity and stands after what is attached to it. -/
structure Deletable (m : Model) (l : List String) : Prop where
  nodup : l.Nodup
  mem : ∀ id ∈ l, id ∈ m.entityIds
  ordered : ∀ l₁ id l₂, l = l₁ ++ id :: l₂ → ∀ r ∈ m.attached id, r ∈ l₁

theorem Deletable.attached_eq_nil {l : List String} (h : m.Deletable (id :: l)) :
    m.attached id = [] := by
  rw [List.eq_nil_iff_forall_not_mem]
  intro r hr
  exact absurd (h.ordered [] id l rfl r hr) List.not_mem_nil

theorem deletable_singleton (hid : id ∈ m.entityIds) (ha : m.attached id = []) :
    m.Deletable [id] where
  nodup := List.nodup_singleton id
  mem := by simpa using hid
  ordered := by
    intro l₁ x l₂ hl r hr
    cases l₁ with
    | nil =>
      obtain ⟨rfl, -⟩ := List.cons.inj hl
      rw [ha] at hr
      cases hr
    | cons y l₁ => simp at hl

/-- After the first id has been deleted the others still can be. -/
theorem Deletable.erase {l : List String} (h : m.Deletable (id :: l)) :
    (m.erase id).Deletable l where
  nodup := (List.nodup_cons.mp h.nodup).2
  mem := by
    intro x hx
    refine mem_entityIds_erase.mpr ⟨h.mem x (List.mem_cons_of_mem _ hx), ?_⟩
    rintro rfl
    exact (List.nodup_cons.mp h.nodup).1 hx
  ordered := by
    intro l₁ x l₂ hl r hr
    rw [attached_erase] at hr
    obtain ⟨hr, hne⟩ := List.mem_filter.mp hr
    rcases List.mem_cons.mp (h.ordered (id :: l₁) x l₂ (by simp [hl]) r hr) with rfl | hr
    · simp at hne
    · exact hr

/-- The model without some ids wherever they stand. -/
def eraseAll (m : Model) (l : List String) : Model :=
  l.foldl erase m

theorem eraseAll_append (l l' : List String) :
    m.eraseAll (l ++ l') = (m.eraseAll l).eraseAll l' :=
  List.foldl_append

theorem eraseAll_cons (l : List String) : m.eraseAll (id :: l) = (m.erase id).eraseAll l := rfl

theorem Deletable.left {l l' : List String} (h : m.Deletable (l ++ l')) : m.Deletable l where
  nodup := (List.nodup_append.mp h.nodup).1
  mem := fun x hx => h.mem x (List.mem_append_left _ hx)
  ordered := by
    intro l₁ x l₂ hl
    exact h.ordered l₁ x (l₂ ++ l') (by simp [hl])

/-- After the ids at the front have been deleted the others still can be. -/
theorem Deletable.right {l l' : List String} (h : m.Deletable (l ++ l')) :
    (m.eraseAll l).Deletable l' := by
  induction l generalizing m with
  | nil => exact h
  | cons id l ih => exact ih h.erase

theorem WellFormed.eraseAll (hm : m.WellFormed) {l : List String} (h : m.Deletable l) :
    (m.eraseAll l).WellFormed := by
  induction l generalizing m with
  | nil => exact hm
  | cons id l ih => exact ih (hm.erase h.attached_eq_nil) h.erase

theorem kind?_eraseAll (l : List String) (x : String) :
    (m.eraseAll l).kind? x = if x ∈ l then none else m.kind? x := by
  induction l generalizing m with
  | nil => simp [eraseAll]
  | cons id l ih =>
    rw [eraseAll_cons, ih, kind?_erase]
    by_cases h : x = id <;> simp [h]

theorem links_eraseAll (l : List String) :
    (m.eraseAll l).links = m.links.filter fun k => k.1 ∉ l := by
  induction l generalizing m with
  | nil => simp [eraseAll]
  | cons id l ih =>
    rw [eraseAll_cons, ih, links_erase, List.filter_filter]
    apply List.filter_congr
    intro k _
    by_cases h : k.1 = id <;> simp [h]

theorem bareIn_eraseAll (l : List String) :
    Folder.bareIn (m.eraseAll l).folders = Folder.bareIn m.folders := by
  induction l generalizing m with
  | nil => rfl
  | cons id l ih =>
    rw [eraseAll_cons, ih, erase]
    exact Folder.bareIn_removeIn id m.folders

/-- What leads to an entity can be deleted in the order of its cascade, and then the entity. -/
theorem WellFormed.deletable_cascade (hm : m.WellFormed) (hid : id ∈ m.entityIds) :
    m.Deletable (m.cascade id ++ [id]) where
  nodup := by
    refine List.nodup_append.mpr ⟨cascade_nodup m id, List.nodup_singleton id, ?_⟩
    rintro x hx _ hx' rfl
    exact (mem_cascade.mp hx).1 (List.mem_singleton.mp hx')
  mem := by
    intro x hx
    rcases List.mem_append.mp hx with hx | hx
    · exact List.mem_append_left _ (List.mem_append_right _
        (mem_relationshipIds_of_mem_cascade hx))
    · rwa [List.mem_singleton.mp hx]
  ordered := by
    intro l₁ x l₂ hl r hr
    rcases List.eq_nil_or_concat l₂ with rfl | ⟨l₂, z, rfl⟩
    · obtain ⟨rfl, hx⟩ := List.append_inj' hl rfl
      rw [← List.singleton_inj.mp hx] at hr
      refine mem_cascade.mpr ⟨?_, .single hr⟩
      rintro rfl
      exact hm.acyclic r (.single hr)
    · have hl' : m.cascade id ++ [id] = (l₁ ++ x :: l₂) ++ [z] := by simpa using hl
      exact mem_of_cascade_eq (fun x _ => hm.acyclic x) (List.append_inj' hl' rfl).1 hr

theorem WellFormed.cascade_eq_nil (hm : m.WellFormed) (hid : id ∉ m.endpointIds) :
    m.cascade id = [] := by
  rw [List.eq_nil_iff_forall_not_mem]
  intro r hr
  obtain ⟨b, -, hb⟩ := Relation.TransGen.tail'_iff.mp (mem_cascade.mp hr).2
  exact hid (hm.mem_endpointIds_of_attached hb)

end Model

end ArchChange
