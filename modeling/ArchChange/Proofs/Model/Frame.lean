import ArchChange.Proofs.Model.Operations
/-!
What operations leave alone: an element or a relationship that they do not address keeps its
record and its folder.
-/
namespace ArchChange

theorem find?_modifyFirst_of_ne {α : Type} {key : α → String} {change : α → α} {id x : String}
    (hc : ∀ a, key (change a) = key a) (hne : x ≠ id) (l : List α) :
    ((modifyFirst (fun a => key a == id) change l).find? fun a => key a == x) =
      l.find? fun a => key a == x := by
  induction l with
  | nil => rfl
  | cons a l ih =>
    by_cases ha : key a = id
    · simp [modifyFirst, ha, hc, Ne.symm hne]
    · by_cases hx : key a = x
      · simp [modifyFirst, hx, hne]
      · simp [modifyFirst, ha, hx, ih]

namespace Folder

variable {entity x : String}

theorem holderIn?_append (fs gs : List Folder) :
    holderIn? x (fs ++ gs) = (holderIn? x fs).or (holderIn? x gs) := by
  induction fs with
  | nil => rfl
  | cons f fs ih =>
    rw [List.cons_append, holderIn?, holderIn?, ih]
    cases holder? x f <;> rfl

theorem holderIn?_removeIn (hne : x ≠ entity) (fs : List Folder) :
    holderIn? x (removeIn entity fs) = holderIn? x fs := by
  induction fs using forest_induction with
  | nil => rfl
  | cons fid name inner members rest hi hr =>
    simp only [removeIn, remove, holderIn?, holder?, hi, hr]
    simp [hne]

/-- A change of one folder that keeps the folder from listing or losing `x` keeps its place. -/
theorem holderIn?_modifyIn? {id : String} {change : Folder → Folder}
    (hc : ∀ f, holder? x (change f) = holder? x f) {fs gs : List Folder}
    (h : modifyIn? id change fs = some gs) : holderIn? x gs = holderIn? x fs := by
  induction fs using forest_induction generalizing gs with
  | nil => simp [modifyIn?] at h
  | cons fid name inner members rest hi hr =>
    by_cases hid : fid = id
    · simp only [modifyIn?, modify?, hid, if_true, Option.some.injEq] at h
      rw [← h, holderIn?, holderIn?, hc, hid]
    · cases hm : modifyIn? id change inner with
      | none =>
        simp only [modifyIn?, modify?, hid, if_false, hm, Option.map_none,
          Option.map_eq_some_iff] at h
        obtain ⟨rest', hrest, rfl⟩ := h
        rw [holderIn?, holderIn?, hr hrest]
      | some inner' =>
        simp only [modifyIn?, modify?, hid, if_false, hm, Option.map_some,
          Option.some.injEq] at h
        rw [← h, holderIn?, holderIn?, holder?, holder?, hi hm]

theorem holderIn?_fileIn (hne : x ≠ entity) (id : String) (fs : List Folder) :
    holderIn? x (fileIn id entity fs) = holderIn? x fs := by
  have hc : ∀ f, holder? x (addMember entity f) = holder? x f := by
    rintro ⟨fid, name, inner, members⟩
    simp [addMember, holder?, hne]
  unfold fileIn
  cases h : modifyIn? id (addMember entity) fs with
  | none => rfl
  | some gs => exact holderIn?_modifyIn? hc h

/-- A new folder holds nothing. -/
theorem holderIn?_addFolder {parent id name : String} {fs gs : List Folder}
    (h : modifyIn? parent (addFolder ⟨id, name, [], []⟩) fs = some gs) :
    holderIn? x gs = holderIn? x fs := by
  refine holderIn?_modifyIn? ?_ h
  rintro ⟨fid, fname, inner, members⟩
  simp [addFolder, holder?, holderIn?_append, holderIn?]

end Folder

namespace Model

/-- The second model has the same element or relationship under the id as the first, in the same
folder. -/
structure Spares (m m' : Model) (x : String) : Prop where
  element? : m'.element? x = m.element? x
  relationship? : m'.relationship? x = m.relationship? x
  folderOf? : m'.folderOf? x = m.folderOf? x

/-- The operation changes what the id stands for, or where it is filed. -/
def Operation.Targets (x : String) : Operation → Prop
  | rename id _ | setProperty id _ _ | removeProperty id _ | setDocumentation id _ | delete id
  | moveToFolder _ id => x = id
  | createElement _ _ | createRelationship _ _ _ _ | createView _ | addToView _ _ _
  | connectInView _ _ _ _ | addFolder _ _ => False

variable {m m' m'' : Model} {id x : String}

theorem Spares.refl (m : Model) (x : String) : Spares m m x :=
  ⟨rfl, rfl, rfl⟩

theorem Spares.trans (h : Spares m m' x) (h' : Spares m' m'' x) : Spares m m'' x :=
  ⟨h'.element?.trans h.element?, h'.relationship?.trans h.relationship?,
    h'.folderOf?.trans h.folderOf?⟩

theorem Spares.mem_endpointIds (h : Spares m m' x) (hx : x ∈ m.endpointIds) :
    x ∈ m'.endpointIds := by
  rw [endpointIds, List.mem_append, ← element?_isSome_iff, ← relationship?_isSome_iff] at hx ⊢
  rwa [h.element?, h.relationship?]

/-- An id of the model is none that is allocated. -/
theorem ne_allocate (hx : x ∈ m.endpointIds) (stem : String) : x ≠ (m.allocate stem).1 := by
  rintro rfl
  exact allocate_not_mem m stem (mem_ids_of_mem_entityIds (List.mem_append_left _ hx))

theorem find?_append_of_ne {α : Type} (key : α → String) {a : α} (hne : x ≠ key a)
    (l : List α) : ((l ++ [a]).find? fun b => key b == x) = l.find? fun b => key b == x := by
  rw [find?_append_singleton, if_neg hne]

theorem spares_createElement (hx : x ∈ m.endpointIds) (type : ElementType) (name : String) :
    Spares m (createElement type name m).2 x where
  element? := find?_append_of_ne Element.id (ne_allocate hx "element") m.elements
  relationship? := rfl
  folderOf? := Folder.holderIn?_fileIn (ne_allocate hx "element") _ _

theorem spares_createRelationship (hx : x ∈ m.endpointIds) (type : RelationshipType)
    (source target name : String) :
    Spares m (createRelationship type source target name m).2 x := by
  by_cases h : m.endpointError? source = none ∧ m.endpointError? target = none
  · rw [createRelationship_of_none type name h.1 h.2]
    have hne := ne_allocate hx "relationship"
    exact ⟨rfl, find?_append_of_ne Relationship.id hne m.relationships,
      Folder.holderIn?_fileIn hne _ _⟩
  · obtain ⟨error, he⟩ := createRelationship_of_some type name (not_and_or.mp h)
    rw [he]
    exact .refl m x

theorem spares_createView (hx : x ∈ m.endpointIds) (name : String) :
    Spares m (createView name m).2 x where
  element? := rfl
  relationship? := rfl
  folderOf? := Folder.holderIn?_fileIn (ne_allocate hx "view") _ _

theorem spares_modifyEntity {element : Element → Element}
    {relationship : Relationship → Relationship} {view : View → View}
    (he : ∀ e, (element e).id = e.id) (hr : ∀ r, (relationship r).id = r.id) (hne : x ≠ id)
    (m : Model) : Spares m (modifyEntity id element relationship view m).2 x := by
  unfold modifyEntity
  split
  · exact ⟨find?_modifyFirst_of_ne he hne _, rfl, rfl⟩
  · split
    · exact ⟨rfl, find?_modifyFirst_of_ne hr hne _, rfl⟩
    · split
      · exact ⟨rfl, rfl, rfl⟩
      · exact .refl m x

theorem spares_removeProperty (hne : x ≠ id) (key : String) (m : Model) :
    Spares m (removeProperty id key m).2 x := by
  have hs : Spares m (modifyProperties id (fun p => p.erase key) m).2 x :=
    spares_modifyEntity (by simp) (by simp) hne m
  unfold removeProperty
  split
  · next heq => rwa [heq] at hs
  · next heq => rwa [heq] at hs

theorem spares_delete (hne : x ≠ id) (m : Model) : Spares m (delete id m).2 x := by
  unfold delete
  cases m.entity? id with
  | none => exact .refl m x
  | some e =>
    simp only
    split
    · cases e.kind with
      | element type =>
        refine ⟨?_, rfl, Folder.holderIn?_removeIn hne _⟩
        exact (find?_filter_ne Element.id x m.elements).trans (if_neg hne)
      | relationship type =>
        refine ⟨rfl, ?_, Folder.holderIn?_removeIn hne _⟩
        exact (find?_filter_ne Relationship.id x m.relationships).trans (if_neg hne)
      | view => exact ⟨rfl, rfl, Folder.holderIn?_removeIn hne _⟩
    · exact .refl m x

theorem spares_addToView (view entity : String) (bounds : Bounds) (m : Model) :
    Spares m (addToView view entity bounds m).2 x := by
  by_cases h : entity ∈ m.elementIds ∧ view ∈ m.viewIds
  · rw [addToView_of_mem bounds h.1 h.2]
    exact ⟨rfl, rfl, rfl⟩
  · obtain ⟨error, he⟩ := addToView_of_not_mem bounds (not_and_or.mp h)
    rw [he]
    exact .refl m x

theorem spares_connectInView (view relationship source target : String) (m : Model) :
    Spares m (connectInView view relationship source target m).2 x := by
  rcases connectInView_cases m view relationship source target with
    ⟨error, he⟩ | ⟨v, -, -, -, -, he⟩
  · rw [he]
    exact .refl m x
  · rw [he]
    exact ⟨rfl, rfl, rfl⟩

theorem spares_moveToFolder {entity : String} (hne : x ≠ entity) (folder : String) (m : Model) :
    Spares m (moveToFolder folder entity m).2 x := by
  unfold moveToFolder
  split
  · exact .refl m x
  · split
    · exact .refl m x
    · refine ⟨rfl, rfl, ?_⟩
      exact (Folder.holderIn?_fileIn hne _ _).trans (Folder.holderIn?_removeIn hne _)

theorem spares_addFolder (parent name : String) (m : Model) :
    Spares m (addFolder parent name m).2 x := by
  rcases addFolder_cases m parent name with ⟨-, he⟩ | ⟨folders, -, h, he⟩
  · rw [he]
    exact ⟨rfl, rfl, rfl⟩
  · rw [he]
    exact ⟨rfl, rfl, Folder.holderIn?_addFolder h⟩

/-- An operation spares every element and relationship that it does not target. -/
theorem spares_run (hx : x ∈ m.endpointIds) {op : Operation} (h : ¬ op.Targets x) :
    Spares m (op.run m) x := by
  cases op with
  | createElement type name => exact spares_createElement hx type name
  | createRelationship type source target name =>
    exact spares_createRelationship hx type source target name
  | rename id name => exact spares_modifyEntity (by simp) (by simp) h m
  | setProperty id key value => exact spares_modifyEntity (by simp) (by simp) h m
  | removeProperty id key => exact spares_removeProperty h key m
  | setDocumentation id text => exact spares_modifyEntity (by simp) (by simp) h m
  | delete id => exact spares_delete h m
  | createView name => exact spares_createView hx name
  | addToView view entity bounds => exact spares_addToView view entity bounds m
  | connectInView view relationship source target =>
    exact spares_connectInView view relationship source target m
  | moveToFolder folder entity => exact spares_moveToFolder h folder m
  | addFolder parent name => exact spares_addFolder parent name m

/-- Operations of which none targets an entity spare it. -/
theorem OperatesTo.spares {p : Operation → Prop} (h : OperatesTo p m m')
    (hp : ∀ op, p op → ¬ op.Targets x) (hx : x ∈ m.endpointIds) : Spares m m' x := by
  induction h with
  | refl => exact .refl m x
  | tail _ hstep ih =>
    obtain ⟨op, hop, rfl⟩ := hstep
    exact ih.trans (spares_run (ih.mem_endpointIds hx) (hp op hop))

end Model

end ArchChange
