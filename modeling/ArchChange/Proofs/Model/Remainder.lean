import ArchChange.Proofs.Model.Operations
import ArchChange.Proofs.Model.Removal
/-!
What an element leaves behind. A model without an element and its cascade is the same before and
after any operation that concerns the element alone, and right after it was created it is the model
before, so all that such operations do goes with the element.
-/
namespace ArchChange

section

variable {α β : Type} {p q : α → Bool} {change : α → α}

/-- A change is not seen in what an item is mapped to. -/
theorem map_filter_modifyFirst {g : α → β} {l : List α} (hq : ∀ a, q (change a) = q a)
    (hg : ∀ a ∈ l, g (change a) = g a) :
    ((modifyFirst p change l).filter q).map g = (l.filter q).map g := by
  induction l with
  | nil => rfl
  | cons a l ih =>
    have hrest := ih fun b hb => hg b (List.mem_cons_of_mem _ hb)
    by_cases ha : p a
    · by_cases hqa : q a
      · simp [modifyFirst, ha, hq, hqa, hg]
      · simp [modifyFirst, ha, hq, hqa]
    · by_cases hqa : q a
      · simp [modifyFirst, ha, hqa, hrest]
      · simp [modifyFirst, ha, hqa, hrest]

/-- A change is not seen in a list from which the changed item is left out. -/
theorem filter_modifyFirst {l : List α} (h : ∀ a, p a → q a = false ∧ q (change a) = false) :
    (modifyFirst p change l).filter q = l.filter q := by
  induction l with
  | nil => rfl
  | cons a l ih =>
    by_cases ha : p a
    · simp [modifyFirst, ha, h a ha]
    · simp [modifyFirst, ha, ih, List.filter_cons]

end

namespace Folder

variable {gone gone' : List String} {entity : String}

theorem withoutIn_congr {fs : List Folder}
    (h : ∀ x ∈ membersIn fs, x ∈ gone ↔ x ∈ gone') : withoutIn gone fs = withoutIn gone' fs := by
  induction fs using forest_induction with
  | nil => rfl
  | cons fid name inner members rest hi hr =>
    simp only [membersIn, allIn, all, List.cons_append, List.flatMap_cons, List.flatMap_append,
      List.mem_append] at hi hr h
    have hmembers : (members.filter fun x => x ∉ gone) = members.filter fun x => x ∉ gone' := by
      apply List.filter_congr
      intro x hx
      simp only [h x (Or.inl hx)]
    rw [withoutIn, withoutIn, without, without, hmembers, hi fun x hx => h x (Or.inr (Or.inl hx)),
      hr fun x hx => h x (Or.inr (Or.inr hx))]

theorem withoutIn_eq_self {fs : List Folder} (h : ∀ x ∈ membersIn fs, x ∉ gone) :
    withoutIn gone fs = fs := by
  rw [withoutIn_congr fun x hx => iff_of_false (h x hx) List.not_mem_nil, withoutIn_nil]

section

variable (hentity : entity ∈ gone)

include hentity

theorem withoutIn_removeIn (fs : List Folder) :
    withoutIn gone (removeIn entity fs) = withoutIn gone fs := by
  rw [← withoutIn_cons]
  apply withoutIn_congr
  intro x _
  rw [List.mem_cons]
  exact or_iff_right_of_imp fun hx => hx ▸ hentity

theorem withoutIn_modifyIn? {id : String} {fs gs : List Folder}
    (h : modifyIn? id (addMember entity) fs = some gs) : withoutIn gone gs = withoutIn gone fs := by
  induction fs using forest_induction generalizing gs with
  | nil => simp [modifyIn?] at h
  | cons fid name inner members rest hi hr =>
    by_cases hid : fid = id
    · simp only [modifyIn?, modify?, hid, if_true, Option.some.injEq] at h
      rw [← h, addMember, withoutIn, withoutIn, without, without, List.filter_append, hid]
      simp [hentity]
    · cases hm : modifyIn? id (addMember entity) inner with
      | none =>
        simp only [modifyIn?, modify?, hid, if_false, hm, Option.map_none,
          Option.map_eq_some_iff] at h
        obtain ⟨rest', hrest, rfl⟩ := h
        rw [withoutIn, withoutIn, hr hrest]
      | some inner' =>
        simp only [modifyIn?, modify?, hid, if_false, hm, Option.map_some,
          Option.some.injEq] at h
        rw [← h, withoutIn, withoutIn, without, without, hi hm]

/-- What is taken out anyway may be filed anywhere. -/
theorem withoutIn_fileIn (id : String) (fs : List Folder) :
    withoutIn gone (fileIn id entity fs) = withoutIn gone fs := by
  unfold fileIn
  cases h : modifyIn? id (addMember entity) fs with
  | none => rfl
  | some gs => exact withoutIn_modifyIn? hentity h

end

end Folder

namespace View

variable {v : View} {id : String} {elements relationships : List String}

/-- Nothing goes from a view with a new element or relationship. -/
theorem Sound.withoutEntity_eq_self (hv : v.Sound elements relationships) (he : id ∉ elements)
    (hr : id ∉ relationships) : v.withoutEntity id [] = v := by
  have hkept : (v.children.filter fun c => c.entityId != id) = v.children := by
    refine List.filter_eq_self.mpr fun c hc => ?_
    rw [bne_iff_ne]
    rintro rfl
    exact he (hv.visuals c hc)
  have hremoved : (v.children.filter fun c => c.entityId == id) = [] := by
    refine List.filter_eq_nil_iff.mpr fun c hc => ?_
    rw [beq_iff_eq]
    rintro rfl
    exact he (hv.visuals c hc)
  have hdrawn : ∀ c ∈ v.connections, c.relationshipId ≠ id := by
    rintro c hc rfl
    exact hr (hv.connections c hc).1
  have hconnections : (v.connections.filter fun c => c.relationshipId ∉ [id] ∧
      c.sourceVisual ∉ ([] : List String) ∧ c.targetVisual ∉ ([] : List String)) =
      v.connections := by
    refine List.filter_eq_self.mpr fun c hc => ?_
    simpa using hdrawn c hc
  simp only [withoutEntity, hkept, hremoved, List.map_nil, hconnections]

/-- No connection ends at a visual that is new, so it goes without a trace. -/
theorem Sound.withoutEntity_place (hv : v.Sound elements relationships) {visual : String}
    (hnew : visual ∉ v.childIds) (bounds : Bounds) (rs : List String) :
    ({ v with children := v.children ++ [⟨visual, id, bounds⟩] } : View).withoutEntity id rs =
      v.withoutEntity id rs := by
  simp only [withoutEntity, List.filter_append, List.map_append]
  have hconnections : ∀ c ∈ v.connections, c.sourceVisual ≠ visual ∧ c.targetVisual ≠ visual := by
    intro c hc
    obtain ⟨-, hs, ht⟩ := hv.connections c hc
    exact ⟨fun h => hnew (h ▸ hs), fun h => hnew (h ▸ ht)⟩
  congr 1
  · simp
  · apply List.filter_congr
    intro c hc
    simp [hconnections c hc]

/-- What no connection draws may be taken from a view as well. -/
theorem Sound.withoutEntity_congr (hv : v.Sound elements relationships) {rs rs' : List String}
    (h : ∀ x ∈ relationships, x ∈ rs ↔ x ∈ rs') :
    v.withoutEntity id rs = v.withoutEntity id rs' := by
  simp only [withoutEntity]
  congr 1
  apply List.filter_congr
  intro c hc
  simp only [List.mem_cons, h _ (hv.connections c hc).1]

end View

namespace Model

variable {m m' m'' : Model} {e : String}

/-- Without the entity and its cascade the two models differ in the last number at most. -/
def SameRest (e : String) (m m' : Model) : Prop :=
  m'.withoutCascade e = { m.withoutCascade e with nextId := m'.nextId }

theorem SameRest.refl (e : String) (m : Model) : SameRest e m m := rfl

theorem SameRest.trans (h : SameRest e m m') (h' : SameRest e m' m'') : SameRest e m m'' := by
  rw [SameRest, h', h]

/-- The operation changes the element or what becomes of it: it edits, files, places or relates
it. -/
def Operation.Concerns (e : String) : Operation → Prop
  | rename id _ | setProperty id _ _ | removeProperty id _ | setDocumentation id _
  | moveToFolder _ id | addToView _ id _ => id = e
  | createRelationship _ source target _ => source = e ∨ target = e
  | createElement _ _ | createView _ | connectInView _ _ _ _ | addFolder _ _ | delete _ => False

/-- Two models are alike once all their lists are alike without what goes. -/
theorem SameRest.of_parts (hname : m'.name = m.name)
    (helements : (m'.elements.filter fun x => x.id != e) = m.elements.filter fun x => x.id != e)
    (hrelationships : (m'.relationships.filter fun r => r.id ∉ m'.cascade e ++ [e]) =
      m.relationships.filter fun r => r.id ∉ m.cascade e ++ [e])
    (hviews : (m'.views.filter fun v => v.id != e).map (View.withoutEntity e (m'.cascade e)) =
      (m.views.filter fun v => v.id != e).map (View.withoutEntity e (m.cascade e)))
    (hfolders : Folder.withoutIn (m'.cascade e ++ [e]) m'.folders =
      Folder.withoutIn (m.cascade e ++ [e]) m.folders) : SameRest e m m' := by
  simp only [SameRest, withoutCascade, hname, helements, hrelationships, hviews, hfolders]

theorem SameEntities.cascade (h : SameEntities m m') (id : String) :
    m'.cascade id = m.cascade id := by
  have hattached : m'.attached = m.attached := funext h.attached
  have hlength : m'.relationships.length = m.relationships.length := by
    simpa [Model.links] using congrArg List.length h.links
  rw [Model.cascade, Model.cascade, hattached, hlength]

theorem sameRest_modifyEntity {element : Element → Element}
    {relationship : Relationship → Relationship} {view : View → View}
    (he : ∀ x, ((element x).id, (element x).type) = (x.id, x.type))
    (hr : ∀ r, ((relationship r).id, (relationship r).type, (relationship r).source,
      (relationship r).target) = (r.id, r.type, r.source, r.target))
    (hv : ∀ v, ((view v).id, (view v).children, (view v).connections) =
      (v.id, v.children, v.connections)) (m : Model) :
    SameRest e m (modifyEntity e element relationship view m).2 := by
  have hshape : SameShape m (modifyEntity e element relationship view m).2 :=
    (modifyEntity_edits he hr hv).sameShape m
  have hcascade := hshape.cascade e
  unfold modifyEntity at hcascade ⊢
  split
  · refine SameRest.of_parts rfl ?_ rfl rfl rfl
    apply filter_modifyFirst
    intro x hx
    have hid : (element x).id = x.id := congrArg Prod.fst (he x)
    rw [hid]
    simpa using hx
  · split
    · next hn hrelationship =>
      rw [if_neg hn, if_pos hrelationship] at hcascade
      refine SameRest.of_parts rfl rfl ?_ ?_ ?_
      · rw [hcascade]
        apply filter_modifyFirst
        intro r hid
        have hsame : (relationship r).id = r.id := congrArg Prod.fst (hr r)
        rw [hsame]
        simp_all
      · rw [hcascade]
      · rw [hcascade]
    · split
      · refine SameRest.of_parts rfl rfl rfl ?_ rfl
        refine congrArg (List.map _) (filter_modifyFirst ?_)
        intro v hid
        have hsame : (view v).id = v.id := congrArg Prod.fst (hv v)
        rw [hsame]
        simpa using hid
      · exact .refl e m

theorem sameRest_removeProperty (key : String) (m : Model) :
    SameRest e m (removeProperty e key m).2 := by
  have hs : SameRest e m (modifyProperties e (fun p => p.erase key) m).2 :=
    sameRest_modifyEntity (by simp) (by simp) (by simp) m
  unfold removeProperty
  split
  · next heq => rwa [heq] at hs
  · next heq => rwa [heq] at hs

theorem sameRest_moveToFolder (folder : String) (m : Model) :
    SameRest e m (moveToFolder folder e m).2 := by
  unfold moveToFolder
  split
  · exact .refl e m
  · split
    · exact .refl e m
    · have he : e ∈ m.cascade e ++ [e] := List.mem_append_right _ (List.mem_singleton_self e)
      have hfolders := Folder.withoutIn_fileIn he folder (Folder.removeIn e m.folders)
      rw [Folder.withoutIn_removeIn he] at hfolders
      exact .of_parts rfl rfl rfl rfl hfolders

theorem sameRest_addToView (hm : m.WellFormed) (view : String) (bounds : Bounds) :
    SameRest e m (addToView view e bounds m).2 := by
  by_cases h : e ∈ m.elementIds ∧ view ∈ m.viewIds
  · have hnew : ∀ v ∈ m.views, (m.allocate "visual").1 ∉ v.childIds := by
      intro v hv hmem
      refine allocate_not_mem m "visual" ?_
      rw [ids_eq]
      refine List.mem_append_left _ (List.mem_append_right _ ?_)
      exact List.mem_flatMap.mpr ⟨v, hv, List.mem_append_left _ hmem⟩
    rw [addToView_of_mem bounds h.1 h.2]
    refine SameRest.of_parts rfl rfl rfl ?_ rfl
    exact map_filter_modifyFirst (fun _ => rfl) fun v hv =>
      (hm.views v hv).withoutEntity_place (hnew v hv) bounds (m.cascade e)
  · obtain ⟨error, he⟩ := addToView_of_not_mem bounds (not_and_or.mp h)
    rw [he]
    exact .refl e m

/-- A new relationship that goes with the element leaves the rest as it is. -/
theorem SameRest.of_new {r : Relationship} {folder : String} (hm : m.WellFormed)
    (hid : r.id ∉ m.ids) (hcascade : ∀ x, x ∈ m'.cascade e ↔ x = r.id ∨ x ∈ m.cascade e)
    (hname : m'.name = m.name) (helements : m'.elements = m.elements)
    (hrelationships : m'.relationships = m.relationships ++ [r]) (hviews : m'.views = m.views)
    (hfolders : m'.folders = Folder.fileIn folder r.id m.folders) : SameRest e m m' := by
  have hold : ∀ x ∈ m.entityIds, x ∈ m'.cascade e ↔ x ∈ m.cascade e := by
    intro x hx
    rw [hcascade, or_iff_right]
    rintro rfl
    exact hid (mem_ids_of_mem_entityIds hx)
  have hgone : ∀ x ∈ m.entityIds, x ∈ m'.cascade e ++ [e] ↔ x ∈ m.cascade e ++ [e] := by
    intro x hx
    rw [List.mem_append, List.mem_append, hold x hx]
  have hnew : r.id ∈ m'.cascade e ++ [e] :=
    List.mem_append_left _ ((hcascade r.id).mpr (Or.inl rfl))
  refine .of_parts hname (by rw [helements]) ?_ ?_ ?_
  · have hkept : (m.relationships.filter fun x => x.id ∉ m'.cascade e ++ [e]) =
        m.relationships.filter fun x => x.id ∉ m.cascade e ++ [e] := by
      apply List.filter_congr
      intro x hx
      simp only [hgone x.id (mem_entityIds_of_relationship (List.mem_map_of_mem hx))]
    rw [hrelationships, List.filter_append, hkept, List.filter_singleton]
    simp [hnew]
  · rw [hviews]
    apply List.map_congr_left
    intro v hv
    refine (hm.views v (List.mem_of_mem_filter hv)).withoutEntity_congr ?_
    intro x hx
    exact hold x (mem_entityIds_of_relationship hx)
  · rw [hfolders, Folder.withoutIn_fileIn hnew]
    exact Folder.withoutIn_congr fun x hx => hgone x (hm.members x hx)

section

variable {type : RelationshipType} {source target name : String}

theorem attached_createRelationship (hs : m.endpointError? source = none)
    (ht : m.endpointError? target = none) {r y : String} :
    (createRelationship type source target name m).2.Attached r y ↔
      m.Attached r y ∨ r = (m.allocate "relationship").1 ∧ (source = y ∨ target = y) := by
  rw [createRelationship_of_none type name hs ht, Attached, Attached, mem_attached, mem_attached]
  simp only [List.mem_append, List.mem_singleton, or_and_right, exists_or, exists_eq_left]
  rw [eq_comm (a := r)]

/-- A relationship with an end in the element goes with the element, and nothing goes with it that
did not go before. -/
theorem mem_cascade_createRelationship (hm : m.WellFormed) (hs : m.endpointError? source = none)
    (ht : m.endpointError? target = none) (hend : source = e ∨ target = e) (x : String) :
    x ∈ (createRelationship type source target name m).2.cascade e ↔
      x = (m.allocate "relationship").1 ∨ x ∈ m.cascade e := by
  have hsource := hm.endpointError?_eq_none_iff.mp hs
  have htarget := hm.endpointError?_eq_none_iff.mp ht
  have he : e ∈ m.endpointIds := by
    rcases hend with rfl | rfl
    · exact hsource
    · exact htarget
  have hattached : ∀ r y, (createRelationship type source target name m).2.Attached r y ↔ _ :=
    fun r y => attached_createRelationship hs ht
  have hnew : ∀ y ∈ m.endpointIds, y ≠ (m.allocate "relationship").1 := by
    rintro y hy rfl
    exact allocate_not_mem m "relationship"
      (mem_ids_of_mem_entityIds (List.mem_append_left _ hy))
  have hfree : ∀ r, ¬ (createRelationship type source target name m).2.Attached r
      (m.allocate "relationship").1 := by
    intro r hr
    rcases (hattached r _).mp hr with hr | ⟨-, rfl | rfl⟩
    · exact hnew _ (hm.mem_endpointIds_of_attached hr) rfl
    · exact hnew _ hsource rfl
    · exact hnew _ htarget rfl
  rw [mem_cascade, mem_cascade]
  constructor
  · rintro ⟨hne, hx⟩
    by_cases hxnew : x = (m.allocate "relationship").1
    · exact Or.inl hxnew
    · refine Or.inr ⟨hne, transGen_of_new (fun r y h => ?_) hfree hx hxnew⟩
      rcases (hattached r y).mp h with h | ⟨h, -⟩
      · exact Or.inr h
      · exact Or.inl h
  · rintro (rfl | ⟨hne, hx⟩)
    · exact ⟨(hnew e he).symm, .single ((hattached _ _).mpr (Or.inr ⟨rfl, hend⟩))⟩
    · exact ⟨hne, Relation.TransGen.mono (fun r y h => (hattached r y).mpr (Or.inl h)) _ _ hx⟩

theorem sameRest_createRelationship (hm : m.WellFormed) (hend : source = e ∨ target = e) :
    SameRest e m (createRelationship type source target name m).2 := by
  by_cases h : m.endpointError? source = none ∧ m.endpointError? target = none
  · have hcascade : ∀ x, x ∈ (createRelationship type source target name m).2.cascade e ↔ _ :=
      mem_cascade_createRelationship hm h.1 h.2 hend
    rw [createRelationship_of_none type name h.1 h.2] at hcascade ⊢
    exact .of_new hm (allocate_not_mem m "relationship") hcascade rfl rfl rfl rfl rfl
  · obtain ⟨error, he⟩ := createRelationship_of_some type name (not_and_or.mp h)
    rw [he]
    exact .refl e m

end

theorem sameRest_run (hm : m.WellFormed) {op : Operation} (h : op.Concerns e) :
    SameRest e m (op.run m) := by
  cases op with
  | rename id name =>
    obtain rfl : id = e := h
    exact sameRest_modifyEntity (by simp) (by simp) (by simp) m
  | setProperty id key value =>
    obtain rfl : id = e := h
    exact sameRest_modifyEntity (by simp) (by simp) (by simp) m
  | removeProperty id key =>
    obtain rfl : id = e := h
    exact sameRest_removeProperty key m
  | setDocumentation id text =>
    obtain rfl : id = e := h
    exact sameRest_modifyEntity (by simp) (by simp) (by simp) m
  | moveToFolder folder id =>
    obtain rfl : id = e := h
    exact sameRest_moveToFolder folder m
  | addToView view id bounds =>
    obtain rfl : id = e := h
    exact sameRest_addToView hm view bounds
  | createRelationship type source target name => exact sameRest_createRelationship hm h
  | createElement type name => exact absurd h id
  | createView name => exact absurd h id
  | connectInView view relationship source target => exact absurd h id
  | addFolder parent name => exact absurd h id
  | delete id => exact False.elim h

/-- Operations that concern the element leave the rest of a model as it is. -/
theorem OperatesTo.sameRest (hm : m.WellFormed) (h : OperatesTo (Operation.Concerns e) m m') :
    SameRest e m m' := by
  induction h with
  | refl => exact .refl e m
  | tail hpast hstep ih =>
    obtain ⟨op, hop, rfl⟩ := hstep
    exact ih.trans (sameRest_run (OperatesTo.wellFormed hpast hm) hop)

/-- Nothing goes with a new element but itself. -/
theorem withoutCascade_createElement (hm : m.WellFormed) (type : ElementType) (name : String) :
    (createElement type name m).2.withoutCascade (m.allocate "element").1 =
      (m.allocate "element").2 := by
  have hfresh : (m.allocate "element").1 ∉ m.entityIds := fun h =>
    allocate_not_mem m "element" (mem_ids_of_mem_entityIds h)
  obtain ⟨hends, hnoview⟩ := not_or.mp (mt List.mem_append.mpr hfresh)
  obtain ⟨hnoelement, hnorelationship⟩ := not_or.mp (mt List.mem_append.mpr hends)
  have hcascade : (createElement type name m).2.cascade (m.allocate "element").1 = [] :=
    hm.cascade_eq_nil hends
  have hrelationships : (m.relationships.filter fun r => r.id ∉ [] ++ [(m.allocate "element").1]) =
      m.relationships := by
    simpa [bne, beq_eq_decide] using filter_ne_eq_self hnorelationship
  have hviews : ((m.views.filter fun v => v.id != (m.allocate "element").1).map
      (View.withoutEntity (m.allocate "element").1 [])) = m.views := by
    rw [filter_ne_eq_self hnoview]
    refine (List.map_congr_left fun v hv => ?_).trans (List.map_id' m.views)
    exact (hm.views v hv).withoutEntity_eq_self hnoelement hnorelationship
  have hfolders : Folder.withoutIn ([] ++ [(m.allocate "element").1]) (Folder.fileIn
      (Folder.idFor type) (m.allocate "element").1 m.folders) = m.folders := by
    rw [Folder.withoutIn_fileIn (by simp)]
    refine Folder.withoutIn_eq_self fun x hx hgone => ?_
    obtain rfl := List.mem_singleton.mp hgone
    exact hfresh (hm.members _ hx)
  have helements : ((createElement type name m).2.elements.filter
      fun x => x.id != (m.allocate "element").1) = m.elements := by
    change (m.elements ++ _).filter _ = _
    rw [List.filter_append, filter_ne_eq_self hnoelement]
    simp [allocate]
  rw [withoutCascade, hcascade]
  exact (Model.mk.injEq ..).mpr ⟨rfl, helements, hrelationships, hviews, hfolders, rfl⟩

end Model

end ArchChange
