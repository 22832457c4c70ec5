import ArchChange.Proofs.Model.Freshness
/-!
Refusals. Each operation has its obstacles, and each obstacle the error that tells it. In any model,
well formed or not, an operation is refused exactly when one of its obstacles is there, and then it
leaves the model as it is.
-/
namespace ArchChange

theorem View.mem_of_missing? {v : View} {visuals : List String} {visual : String}
    (h : v.missing? visuals = some visual) : visual ∈ visuals ∧ visual ∉ v.childIds := by
  refine ⟨List.mem_of_find?_eq_some h, ?_⟩
  have hnone := List.find?_some h
  simpa [childIds] using hnone

namespace Model

/-! Obstacles: something is not there, or is not of the kind that it should be. -/

def NoEntity (m : Model) (id : String) (error : StoreError) : Prop :=
  id ∉ m.entityIds ∧ error = .notFound id

def NoView (m : Model) (view : String) (error : StoreError) : Prop :=
  view ∉ m.viewIds ∧ error = .viewNotFound view

def NoFolder (m : Model) (folder : String) (error : StoreError) : Prop :=
  folder ∉ Folder.idsIn m.folders ∧ error = .folderNotFound folder

def NoRelationship (m : Model) (relationship : String) (error : StoreError) : Prop :=
  relationship ∉ m.relationshipIds ∧ error = .notFound relationship

/-- One of the visuals is not on the view. -/
def NoVisual (m : Model) (view : String) (visuals : List String) (error : StoreError) : Prop :=
  ∃ v, m.view? view = some v ∧ ∃ visual ∈ visuals, visual ∉ v.childIds ∧
    error = .visualNotOnView view visual

/-- The id is no end for a relationship: it stands for nothing or for a view. -/
def NoEndpoint (m : Model) (id : String) (error : StoreError) : Prop :=
  m.NoEntity id error ∨ m.kind? id = some .view ∧ error = .wrongKind id .endpoint .view

/-- The id is nothing to place on a view: it stands for nothing or not for an element. -/
def NoPlacement (m : Model) (id : String) (error : StoreError) : Prop :=
  m.NoEntity id error ∨
  (∃ type, m.kind? id = some (.relationship type)) ∧
    error = .wrongKind id .placed .relationship ∨
  m.kind? id = some .view ∧ error = .wrongKind id .placed .view

/-- What there is under the id is an end of relationships. -/
def StillJoined (m : Model) (id : String) (error : StoreError) : Prop :=
  id ∈ m.entityIds ∧ (∃ r ∈ m.relationships, r.source = id ∨ r.target = id) ∧
    error = .stillConnected id (m.attached id).length

/-- What stands in the way of an operation, by the error that tells it. -/
def Operation.Obstacle (m : Model) (error : StoreError) : Operation → Prop
  | createElement _ _ | createView _ => False
  | createRelationship _ source target _ => m.NoEndpoint source error ∨ m.NoEndpoint target error
  | rename id _ | setProperty id _ _ | removeProperty id _ | setDocumentation id _ =>
    m.NoEntity id error
  | delete id => m.NoEntity id error ∨ m.StillJoined id error
  | addToView view entity _ => m.NoPlacement entity error ∨ m.NoView view error
  | connectInView view relationship source target =>
    m.NoRelationship relationship error ∨ m.NoView view error ∨
      m.NoVisual view [source, target] error
  | moveToFolder folder entity => m.NoEntity entity error ∨ m.NoFolder folder error
  | addFolder parent _ => m.NoFolder parent error

/-- What a refused operation leaves: the model, but a new folder has used up its number. -/
def Operation.spent (m : Model) : Operation → Model
  | addFolder _ _ => (m.allocate "folder").2
  | _ => m

/-- A call is made, for nothing stands in its way, or it is refused for something that does and
leaves what it is said to leave. -/
inductive Settled {α : Type} (obstacle : StoreError → Prop) (left : Model) :
    Except StoreError α × Model → Prop
  | made {a : α} {m : Model} (free : ∀ error, ¬ obstacle error) :
    Settled obstacle left (.ok a, m)
  | refused {error : StoreError} (there : obstacle error) :
    Settled obstacle left (.error error, left)

variable {m : Model} {id : String} {error : StoreError} {obstacle : StoreError → Prop}

theorem Settled.map {α β : Type} {result : Except StoreError α × Model}
    (h : Settled obstacle m result) (f : α → β) :
    Settled obstacle m (result.1.map f, result.2) := by
  cases h with
  | made free => exact .made free
  | refused there => exact .refused there

/-! Each change is settled. -/

theorem Edits.settled {α : Type} {change : Change α} (h : Edits change id) (m : Model) :
    Settled (m.NoEntity id) m (change m) := by
  by_cases hid : id ∈ m.entityIds
  · obtain ⟨a, ha⟩ := h.of_mem m hid
    rw [← Prod.eta (change m), ha]
    exact .made fun _ hnone => hnone.1 hid
  · rw [h.of_not_mem m hid]
    exact .refused ⟨hid, rfl⟩

theorem endpointError?_eq_some_iff :
    m.endpointError? id = some error ↔ m.NoEndpoint id error := by
  rw [NoEndpoint, NoEntity, ← kind?_eq_none_iff]
  unfold endpointError? kind?
  cases m.entity? id with
  | none => simp [eq_comm]
  | some e =>
    obtain ⟨eid, name, kind⟩ := e
    cases kind <;> simp [eq_comm]

theorem placedError?_eq_some_iff :
    m.placedError? id = some error ↔ m.NoPlacement id error := by
  rw [NoPlacement, NoEntity, ← kind?_eq_none_iff]
  unfold placedError? kind?
  cases m.entity? id with
  | none => simp [eq_comm]
  | some e =>
    obtain ⟨eid, name, kind⟩ := e
    cases kind <;> simp [eq_comm]

theorem settled_createRelationship (type : RelationshipType) (source target name : String)
    (m : Model) : Settled (fun error => m.NoEndpoint source error ∨ m.NoEndpoint target error) m
      (createRelationship type source target name m) := by
  unfold createRelationship
  simp only [← endpointError?_eq_some_iff]
  cases hs : m.endpointError? source with
  | some error => exact .refused (Or.inl rfl)
  | none =>
    cases ht : m.endpointError? target with
    | some error => exact .refused (Or.inr rfl)
    | none => exact .made fun _ h => h.elim nofun nofun

theorem settled_delete (id : String) (m : Model) :
    Settled (fun error => m.NoEntity id error ∨ m.StillJoined id error) m (delete id m) := by
  by_cases hid : id ∈ m.entityIds
  · by_cases ha : m.attached id = []
    · obtain ⟨e, he⟩ := Option.isSome_iff_exists.mp (entity?_isSome_iff.mpr hid)
      rw [delete, he]
      simp only [ha, List.length_nil]
      refine .made ?_
      rintro _ (⟨hnot, -⟩ | ⟨-, ⟨r, hr, hends⟩, -⟩)
      · exact hnot hid
      · have hmem : r.id ∈ m.attached id := mem_attached.mpr ⟨r, hr, rfl, hends⟩
        rw [ha] at hmem
        cases hmem
    · rw [delete_of_attached hid ha]
      obtain ⟨r, hr⟩ := List.exists_mem_of_ne_nil _ ha
      obtain ⟨x, hx, -, hends⟩ := mem_attached.mp hr
      exact .refused (Or.inr ⟨hid, ⟨x, hx, hends⟩, rfl⟩)
  · rw [delete_of_not_mem hid]
    exact .refused (Or.inl ⟨hid, rfl⟩)

theorem settled_addToView (view entity : String) (bounds : Bounds) (m : Model) :
    Settled (fun error => m.NoPlacement entity error ∨ m.NoView view error) m
      (addToView view entity bounds m) := by
  unfold addToView
  simp only [← placedError?_eq_some_iff]
  cases he : m.placedError? entity with
  | some error => exact .refused (Or.inl rfl)
  | none =>
    by_cases hv : view ∈ m.viewIds
    · have hsome := view?_isSome_iff.mpr hv
      rw [if_neg (by simpa using Option.isSome_iff_ne_none.mp hsome), addedToView_of_mem hv]
      exact .made fun _ h => h.elim nofun fun hnone => hnone.1 hv
    · rw [if_pos (by rw [view?_eq_none_iff.mpr hv]; rfl)]
      exact .refused (Or.inr ⟨hv, rfl⟩)

theorem settled_connectInView (view relationship source target : String) (m : Model) :
    Settled (fun error => m.NoRelationship relationship error ∨ m.NoView view error ∨
      m.NoVisual view [source, target] error) m
      (connectInView view relationship source target m) := by
  unfold connectInView
  cases hr : m.relationship? relationship with
  | none => exact .refused (Or.inl ⟨relationship?_eq_none_iff.mp hr, rfl⟩)
  | some r =>
    have hrelationship : relationship ∈ m.relationshipIds :=
      relationship?_isSome_iff.mp (Option.isSome_of_eq_some hr)
    cases hv : m.view? view with
    | none => exact .refused (Or.inr (Or.inl ⟨view?_eq_none_iff.mp hv, rfl⟩))
    | some v =>
      have hview : view ∈ m.viewIds := view?_isSome_iff.mp (Option.isSome_of_eq_some hv)
      cases hmissing : v.missing? [source, target] with
      | some visual =>
        obtain ⟨hmem, hnot⟩ := View.mem_of_missing? hmissing
        simp only [hmissing]
        exact .refused (Or.inr (Or.inr ⟨v, hv, visual, hmem, hnot, rfl⟩))
      | none =>
        have hthere := View.missing?_eq_none_iff.mp hmissing
        simp only [hmissing, Option.isNone_some, Bool.false_eq_true, if_false,
          addedToView_of_mem hview]
        refine .made ?_
        rintro _ (⟨hnot, -⟩ | ⟨hnot, -⟩ | ⟨w, hw, visual, hmem, hnot, -⟩)
        · exact hnot hrelationship
        · exact hnot hview
        · rw [hv] at hw
          cases hw
          exact hnot (hthere visual hmem)

theorem settled_moveToFolder (folder entity : String) (m : Model) :
    Settled (fun error => m.NoEntity entity error ∨ m.NoFolder folder error) m
      (moveToFolder folder entity m) := by
  by_cases he : entity ∈ m.entityIds
  · by_cases hf : folder ∈ Folder.idsIn m.folders
    · rw [moveToFolder_of_mem he hf]
      exact .made fun _ h => h.elim (fun hnone => hnone.1 he) fun hnone => hnone.1 hf
    · rw [moveToFolder_of_no_folder he hf]
      exact .refused (Or.inr ⟨hf, rfl⟩)
  · rw [moveToFolder_of_not_mem he]
    exact .refused (Or.inl ⟨he, rfl⟩)

theorem settled_addFolder (parent name : String) (m : Model) :
    Settled (m.NoFolder parent) (m.allocate "folder").2 (addFolder parent name m) := by
  rcases addFolder_cases m parent name with ⟨hnot, he⟩ | ⟨folders, hmem, -, he⟩
  · rw [he]
    exact .refused ⟨hnot, rfl⟩
  · rw [he]
    exact .made fun _ hnone => hnone.1 hmem

/-- What an operation answers and leaves depends on whether an obstacle is there. -/
theorem Operation.settled (m : Model) (op : Operation) :
    Settled (fun error => op.Obstacle m error) (op.spent m) (op.answer m, op.run m) := by
  cases op with
  | createElement type name => exact .made fun _ => id
  | createRelationship type source target name =>
    exact (settled_createRelationship type source target name m).map _
  | rename id name => exact ((rename_edits id name).settled m).map _
  | setProperty id key value => exact ((setProperty_edits id key value).settled m).map _
  | removeProperty id key => exact ((removeProperty_edits id key).settled m).map _
  | setDocumentation id text => exact ((setDocumentation_edits id text).settled m).map _
  | delete id => exact (settled_delete id m).map _
  | createView name => exact .made fun _ => id
  | addToView view entity bounds => exact (settled_addToView view entity bounds m).map _
  | connectInView view relationship source target =>
    exact (settled_connectInView view relationship source target m).map _
  | moveToFolder folder entity => exact (settled_moveToFolder folder entity m).map _
  | addFolder parent name => exact (settled_addFolder parent name m).map _

/-- In any model an operation is refused if and only if an obstacle is there, and the error that it
answers tells one that is. Refused, it leaves the model as it is, the last number included; a new
folder alone has used up its number. And where an operation is not refused and answers with an id,
the model has got that id and no other. -/
theorem refused_iff_obstacle (m : Model) (op : Operation) :
    ((∃ error, op.answer m = .error error) ↔ ∃ error, op.Obstacle m error) ∧
    (∀ error, op.answer m = .error error → op.Obstacle m error ∧ op.run m = op.spent m) ∧
    ∀ id, op.answer m = .ok (some id) → (op.run m).ids.Perm (id :: m.ids) := by
  have hsettled := op.settled m
  refine ⟨?_, ?_, ?_⟩
  · generalize op.answer m = answer, op.run m = left at hsettled
    cases hsettled with
    | made free => exact ⟨nofun, fun ⟨error, h⟩ => absurd h (free error)⟩
    | refused there => exact ⟨fun _ => ⟨_, there⟩, fun _ => ⟨_, rfl⟩⟩
  · intro error h
    rw [h] at hsettled
    generalize op.run m = left at hsettled ⊢
    cases hsettled with
    | refused there => exact ⟨there, rfl⟩
  · intro id h
    rcases op.allots_cases m with hnot | ⟨stem, hallots⟩
    · exact absurd h (hnot.answer id)
    · exact (hallots.answer id h).2

/-- Two elements and a view share an id, a relationship joins itself and nothing. What is missing is
not found though a relationship is attached to it, what is attached to itself cannot go, a view is
no end, and the shared id stands for an element when it is placed on the view of that id. -/
theorem refused_iff_obstacle_sample :
    let m : Model := { Model.new "Office" with
      elements := [⟨"twin", .businessActor, "Clerk", "", .empty⟩,
        ⟨"twin", .businessActor, "Client", "", .empty⟩]
      relationships := [⟨"loop", .association, "", "loop", "gone", "", .empty⟩]
      views := [⟨"twin", "Desk", "", .empty, [], []⟩, ⟨"hall", "Hall", "", .empty, [], []⟩] }
    let missing : Operation := .delete "gone"
    let joined : Operation := .delete "loop"
    let view : Operation := .createRelationship .association "twin" "hall" ""
    let placed : Operation := .addToView "twin" "twin" ⟨0, 0, 1, 1⟩
    (missing.answer m = .error (.notFound "gone") ∧ missing.run m = m) ∧
    (joined.answer m = .error (.stillConnected "loop" 1) ∧ joined.run m = m) ∧
    (view.answer m = .error (.wrongKind "hall" .endpoint .view) ∧ view.run m = m) ∧
    placed.answer m = .ok (some "visual-1") ∧ (placed.run m).ids.Perm ("visual-1" :: m.ids) := by
  intro m missing joined view placed
  have hmissing : missing.answer m = .error (.notFound "gone") := by decide +kernel
  have hjoined : joined.answer m = .error (.stillConnected "loop" 1) := by decide +kernel
  have hview : view.answer m = .error (.wrongKind "hall" .endpoint .view) := by decide +kernel
  have hplaced : placed.answer m = .ok (some "visual-1") := by decide +kernel
  exact ⟨⟨hmissing, ((refused_iff_obstacle m missing).2.1 _ hmissing).2⟩,
    ⟨hjoined, ((refused_iff_obstacle m joined).2.1 _ hjoined).2⟩,
    ⟨hview, ((refused_iff_obstacle m view).2.1 _ hview).2⟩,
    hplaced, (refused_iff_obstacle m placed).2.2 _ hplaced⟩

end Model

end ArchChange
