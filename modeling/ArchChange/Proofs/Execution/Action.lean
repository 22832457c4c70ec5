import ArchChange.Proofs.Execution.FolderPath
import ArchChange.Proofs.Model.Development
/-!
What an action does on a well-formed model. Either what it needs is there, and then it is made
with the effect stated here, or it fails and leaves the whole run as it is.
-/
namespace ArchChange.Execution

/-- What an action needs of the run that it meets. -/
def Feasible (oracle : Oracle) (run : Run Model) : Action → Prop
  | .createElement label _ _ _ => (oracle.elementType? label).isSome
  | .createRelationship label source target _ => (oracle.relationshipType? label).isSome ∧
    (∃ live, run.live? source = some live ∧ live ∈ run.store.endpointIds) ∧
    ∃ live, run.live? target = some live ∧ live ∈ run.store.endpointIds
  | .createView _ _ => True
  | .deleteRelationship id => id ∈ run.store.relationshipIds ∧ run.store.attached id = []
  | .addToView view element _ _ _ _ =>
    (∃ live, run.liveView? view = some live ∧ live ∈ run.store.viewIds) ∧
    ∃ live, run.live? element = some live ∧ live ∈ run.store.elementIds
  | .moveToFolder id path =>
    (∃ live, run.live? id = some live ∧ live ∈ run.store.entityIds) ∧
    (Folder.atPath? path run.store.folders).isSome
  | .renameElement id _ | .deleteElement id | .setProperty id _ _ | .removeProperty id _
  | .setDocumentation id _ => ∃ live, run.live? id = some live ∧ live ∈ run.store.entityIds

/-- The entries that an action adds to a table of references. -/
def declared (ref : Option String) (id : String) : List (String × String) :=
  (ref.map fun ref => (ref, id)).toList

/-- The runs agree on what references stand for. -/
structure SameRefs (run run' : Run Model) : Prop where
  elementRefs : run'.elementRefs = run.elementRefs
  viewRefs : run'.viewRefs = run.viewRefs

/-- What making an action does to a run. -/
def Makes (run run' : Run Model) : Action → Prop
  | .createElement _ _ ref _ => ∃ id type, run.store.Gains id (.element type) run'.store ∧
    run'.elementRefs = declared ref id ++ run.elementRefs ∧ run'.viewRefs = run.viewRefs
  | .createView _ ref => ∃ id, run.store.Gains id .view run'.store ∧
    run'.elementRefs = run.elementRefs ∧ run'.viewRefs = declared ref id ++ run.viewRefs
  | .createRelationship _ _ _ _ => ∃ id type,
    run.store.Gains id (.relationship type) run'.store ∧ SameRefs run run'
  | .deleteElement id => ∃ live, run.live? id = some live ∧
    run.store.Loses (run.store.cascade live ++ [live]) run'.store ∧ SameRefs run run'
  | .deleteRelationship id => run.store.Loses [id] run'.store ∧ SameRefs run run'
  | .renameElement _ _ | .setProperty _ _ _ | .removeProperty _ _ | .setDocumentation _ _
  | .addToView _ _ _ _ _ _ | .moveToFolder _ _ =>
    run.store.Stays run'.store ∧ SameRefs run run'

/-- The step makes the action, or else fails and changes nothing. -/
def Accounts (oracle : Oracle) (run : Run Model) (action : Action) (step : Step Model Done) :
    Prop :=
  (Feasible oracle run action ∧
    ∃ done run', step.run run = (.ok done, run') ∧ Makes run run' action) ∨
  (¬ Feasible oracle run action ∧ ∃ error, step.run run = (.error error, run))

variable {oracle : Oracle} {run : Run Model}

theorem Accounts.made {action : Action} {step : Step Model Done} (done : Done) (run' : Run Model)
    (hf : Feasible oracle run action) (hs : step.run run = (.ok done, run'))
    (hm : Makes run run' action) : Accounts oracle run action step :=
  Or.inl ⟨hf, done, run', hs, hm⟩

theorem Accounts.failed {action : Action} {step : Step Model Done} (error : ActionError)
    (hf : ¬ Feasible oracle run action) (hs : step.run run = (.error error, run)) :
    Accounts oracle run action step :=
  Or.inr ⟨hf, error, hs⟩

open Step in
/-- Documenting an entity that is there succeeds. -/
theorem run_document (run : Run Model) (hm : run.store.WellFormed) {id : String}
    (hid : id ∈ run.store.entityIds) (text : Option String) :
    ∃ store, (document id text).run run = (.ok (), { run with store }) ∧
      run.store.Stays store := by
  have hstays : run.store.Stays run.store := .refl hm
  cases text with
  | none => exact ⟨run.store, rfl, hstays⟩
  | some text =>
    by_cases he : text.isEmpty
    · simp only [document, he, if_true]
      exact ⟨run.store, rfl, hstays⟩
    · have hedits := Model.setDocumentation_edits id text
      obtain ⟨a, ha⟩ := hedits.of_mem run.store hid
      simp only [document, he]
      exact ⟨_, run_call_of_ok (Prod.ext ha rfl) .documenting,
        (hedits.sameShape run.store).stays hm⟩

open Step in
/-- Deleting ids in an order in which nothing is attached to the next one succeeds. -/
theorem run_deleteAttached (run : Run Model) (hm : run.store.WellFormed) {l : List String}
    (h : run.store.Deletable l) :
    (deleteAttached l).run run = (.ok (), { run with store := run.store.eraseAll l }) := by
  induction l generalizing run with
  | nil => rfl
  | cons id l ih =>
    have hdelete : Store.delete id run.store = (.ok (), run.store.erase id) :=
      hm.delete_eq (h.mem id List.mem_cons_self) h.attached_eq_nil
    rw [deleteAttached, run_bind_of_ok (run_call_of_ok hdelete _)]
    exact ih { run with store := run.store.erase id } (hm.erase h.attached_eq_nil) h.erase

section

variable (hm : run.store.WellFormed)

include hm

open Step

/-- Looking an entity up and editing it, the shape of many actions. -/
theorem run_edit {α : Type} {id : String} {change : String → Model.Change α}
    (hc : ∀ live, Model.Edits (change live) live) (report : String → α → Done) :
    let step := resolve id .notFound >>= fun live =>
      call .store (change live) >>= fun a => pure (report live a)
    ((∃ live, run.live? id = some live ∧ live ∈ run.store.entityIds) ∧
      ∃ done run', step.run run = (.ok done, run') ∧
        run.store.Stays run'.store ∧ SameRefs run run') ∨
    ((¬ ∃ live, run.live? id = some live ∧ live ∈ run.store.entityIds) ∧
      ∃ error, step.run run = (.error error, run)) := by
  intro step
  cases hl : run.live? id with
  | none => exact Or.inr ⟨by simp, _, run_bind_of_error (run_resolve_of_none hl _) _⟩
  | some live =>
    have hstep : step.run run = (call .store (change live) >>= fun a =>
        pure (report live a) : Step Model Done).run run :=
      run_bind_of_ok (run_resolve_of_some hl _) _
    by_cases hmem : live ∈ run.store.entityIds
    · obtain ⟨a, ha⟩ := (hc live).of_mem run.store hmem
      refine Or.inl ⟨⟨live, rfl, hmem⟩, report live a, { run with
        store := (change live run.store).2 }, ?_, ((hc live).sameShape run.store).stays hm, rfl,
        rfl⟩
      rw [hstep, run_bind_of_ok (run_call_of_ok (Prod.ext ha rfl) .store)]
      rfl
    · refine Or.inr ⟨by simpa using hmem, .store (.notFound live), ?_⟩
      rw [hstep]
      exact run_bind_of_error (run_call_of_error ((hc live).of_not_mem run.store hmem) .store) _

/-- Creating an element of a known type succeeds. -/
theorem run_createElement {label : String} {type : ElementType}
    (ht : oracle.elementType? label = some type) (name : String) (ref text : Option String) :
    ∃ store, (applyAction oracle (.createElement label name ref text)).run run =
        (.ok ⟨.elementCreated type name, some (run.store.allocate "element").1⟩, { run with
          store
          elementRefs := declared ref (run.store.allocate "element").1 ++ run.elementRefs }) ∧
      run.store.Gains (run.store.allocate "element").1 (.element type) store := by
  have hgains := Model.gains_createElement hm type name
  have hcreate : Store.createElement type name run.store =
      (.ok (run.store.allocate "element").1, (run.store.createElement type name).2) := rfl
  obtain ⟨store, hdocument, hstays⟩ := run_document
    { run with store := (run.store.createElement type name).2 } hgains.wellFormed hgains.mem text
  refine ⟨store, ?_, hgains.trans hstays⟩
  simp only [applyAction, ht]
  rw [run_bind_of_ok (run_call_of_ok hcreate .store), run_bind_of_ok hdocument,
    run_bind_of_ok (run_declareElement ref)]
  rfl

theorem accounts_createElement (label name : String) (ref text : Option String) :
    Accounts oracle run (.createElement label name ref text)
      (applyAction oracle (.createElement label name ref text)) := by
  cases ht : oracle.elementType? label with
  | none =>
    have hrun : (applyAction oracle (.createElement label name ref text)).run run =
        (.error (.unknownElementType label), run) := by
      simp only [applyAction, ht]
      rfl
    exact .failed _ (by simp [Feasible, ht]) hrun
  | some type =>
    obtain ⟨store, hrun, hgains⟩ := run_createElement hm ht name ref text
    exact .made _ _ (by simp [Feasible, ht]) hrun ⟨_, type, hgains, rfl, rfl⟩

theorem accounts_createView (name : String) (ref : Option String) :
    Accounts oracle run (.createView name ref) (applyAction oracle (.createView name ref)) := by
  have hcreate : Store.createView name run.store =
      (.ok (run.store.allocate "view").1, (run.store.createView name).2) := rfl
  have hrun : (applyAction oracle (.createView name ref)).run run =
      (.ok ⟨.viewCreated name, some (run.store.allocate "view").1⟩, { run with
        store := (run.store.createView name).2
        viewRefs := declared ref (run.store.allocate "view").1 ++ run.viewRefs }) := by
    simp only [applyAction]
    rw [run_bind_of_ok (run_call_of_ok hcreate .store), run_bind_of_ok (run_declareView ref)]
    rfl
  exact .made _ _ trivial hrun ⟨_, Model.gains_createView hm name, rfl, rfl⟩

theorem accounts_renameElement (id name : String) :
    Accounts oracle run (.renameElement id name) (applyAction oracle (.renameElement id name)) :=
  run_edit hm (fun live => Model.rename_edits live name) fun live _ => ⟨.renamed live name, none⟩

theorem accounts_setProperty (id key value : String) :
    Accounts oracle run (.setProperty id key value)
      (applyAction oracle (.setProperty id key value)) :=
  run_edit hm (fun live => Model.setProperty_edits live key value)
    fun live _ => ⟨.propertySet key value live, none⟩

theorem accounts_removeProperty (id key : String) :
    Accounts oracle run (.removeProperty id key) (applyAction oracle (.removeProperty id key)) :=
  run_edit hm (fun live => Model.removeProperty_edits live key)
    fun live removed =>
      ⟨if removed then .propertyRemoved key live else .propertyNotSet key live, none⟩

theorem accounts_setDocumentation (id text : String) :
    Accounts oracle run (.setDocumentation id text)
      (applyAction oracle (.setDocumentation id text)) :=
  run_edit hm (fun live => Model.setDocumentation_edits live text)
    fun live _ => ⟨.documentationSet live, none⟩

/-- Creating a relationship of a known type between what can be its ends succeeds. -/
theorem run_createRelationship {label source target a b : String} {type : RelationshipType}
    (ht : oracle.relationshipType? label = some type) (hs : run.live? source = some a)
    (hd : run.live? target = some b) (ha : a ∈ run.store.endpointIds)
    (hb : b ∈ run.store.endpointIds) (name : Option String) :
    (applyAction oracle (.createRelationship label source target name)).run run =
      (.ok ⟨.relationshipCreated type a b, some (run.store.allocate "relationship").1⟩,
        { run with store := (run.store.createRelationship type a b (name.getD "")).2 }) := by
  have hcreate : Store.createRelationship type a b (name.getD "") run.store =
      (.ok (run.store.allocate "relationship").1,
        (run.store.createRelationship type a b (name.getD "")).2) :=
    Prod.ext (Model.gains_createRelationship hm type (name.getD "") ha hb).1 rfl
  simp only [applyAction, ht]
  rw [run_bind_of_ok (run_resolve_of_some hs _), run_bind_of_ok (run_resolve_of_some hd _),
    run_bind_of_ok (run_call_of_ok hcreate .store)]
  rfl

theorem accounts_createRelationship (label source target : String) (name : Option String) :
    Accounts oracle run (.createRelationship label source target name)
      (applyAction oracle (.createRelationship label source target name)) := by
  cases ht : oracle.relationshipType? label with
  | none =>
    have hrun : (applyAction oracle (.createRelationship label source target name)).run run =
        (.error (.unknownRelationshipType label), run) := by
      simp only [applyAction, ht]
      rfl
    exact .failed _ (by simp [Feasible, ht]) hrun
  | some type =>
    cases hs : run.live? source with
    | none =>
      simp only [applyAction, ht]
      exact .failed _ (by simp [Feasible, hs]) (run_bind_of_error (run_resolve_of_none hs _) _)
    | some a =>
      cases hd : run.live? target with
      | none =>
        simp only [applyAction, ht]
        refine .failed (.targetNotFound target) (by simp [Feasible, hd]) ?_
        rw [run_bind_of_ok (run_resolve_of_some hs _),
          run_bind_of_error (run_resolve_of_none hd _)]
      | some b =>
        by_cases hends : a ∈ run.store.endpointIds ∧ b ∈ run.store.endpointIds
        · exact .made _ _ (by simp [Feasible, ht, hs, hd, hends])
            (run_createRelationship hm ht hs hd hends.1 hends.2 name)
            ⟨_, type, (Model.gains_createRelationship hm type _ hends.1 hends.2).2, rfl, rfl⟩
        · have hn : run.store.endpointError? a ≠ none ∨ run.store.endpointError? b ≠ none := by
            simpa only [ne_eq, hm.endpointError?_eq_none_iff, ← not_and_or] using hends
          obtain ⟨error, herror⟩ := Model.createRelationship_of_some type (name.getD "") hn
          have hcreate : Store.createRelationship type a b (name.getD "") run.store =
              (.error error, run.store) := herror
          simp only [applyAction, ht]
          refine .failed (.store error) (by simpa [Feasible, hs, hd, ht] using hends) ?_
          rw [run_bind_of_ok (run_resolve_of_some hs _), run_bind_of_ok (run_resolve_of_some hd _),
            run_bind_of_error (run_call_of_error hcreate .store)]

/-- Deleting what is there takes its cascade away and then the thing itself. -/
theorem run_deleteElement (oracle : Oracle) {id live : String} (hl : run.live? id = some live)
    (hmem : live ∈ run.store.entityIds) : (applyAction oracle (.deleteElement id)).run run =
      (.ok ⟨.deleted live (run.store.cascade live).length, none⟩,
        { run with store := run.store.eraseAll (run.store.cascade live ++ [live]) }) := by
  have hd := hm.deletable_cascade hmem
  have hlast : (run.store.eraseAll (run.store.cascade live)).Deletable [live] := hd.right
  have hdelete : Store.delete live (run.store.eraseAll (run.store.cascade live)) =
      (.ok (), run.store.eraseAll (run.store.cascade live ++ [live])) := by
    rw [Model.eraseAll_append]
    exact (hm.eraseAll hd.left).delete_eq (hlast.mem live List.mem_cons_self)
      hlast.attached_eq_nil
  have hcascade : EntityLookup.cascade run.store live = run.store.cascade live := rfl
  rw [applyAction, run_bind_of_ok (run_resolve_of_some hl _), run_get_bind, hcascade,
    run_bind_of_ok (run_deleteAttached run hm hd.left),
    run_bind_of_ok (run_call_of_ok hdelete .store)]
  rfl

theorem accounts_deleteElement (id : String) :
    Accounts oracle run (.deleteElement id) (applyAction oracle (.deleteElement id)) := by
  cases hl : run.live? id with
  | none =>
    exact .failed _ (by simp [Feasible, hl]) (run_bind_of_error (run_resolve_of_none hl _) _)
  | some live =>
    by_cases hmem : live ∈ run.store.entityIds
    · exact .made _ _ ⟨live, hl, hmem⟩ (run_deleteElement hm oracle hl hmem)
        ⟨live, hl, ⟨hm.deletable_cascade hmem, rfl⟩, rfl, rfl⟩
    · simp only [applyAction]
      have hends : live ∉ run.store.endpointIds := fun h => hmem (List.mem_append_left _ h)
      have hdelete : Store.delete live run.store = (.error (.notFound live), run.store) :=
        Model.delete_of_not_mem hmem
      refine .failed (.store (.notFound live)) (by simpa [Feasible, hl] using hmem) ?_
      rw [run_bind_of_ok (run_resolve_of_some hl _), run_get_bind]
      have hcascade : EntityLookup.cascade run.store live = [] := hm.cascade_eq_nil hends
      simp only [hcascade]
      exact run_bind_of_error (run_call_of_error hdelete .store) _

theorem accounts_deleteRelationship (id : String) :
    Accounts oracle run (.deleteRelationship id) (applyAction oracle (.deleteRelationship id)) := by
  have hkind : (EntityLookup.entity? run.store id).map Entity.kind = run.store.kind? id := rfl
  by_cases hid : id ∈ run.store.relationshipIds
  · obtain ⟨type, hk⟩ := hm.mem_relationshipIds_iff.mp hid
    have hmem : id ∈ run.store.entityIds := Model.mem_entityIds_of_relationship hid
    simp only [applyAction]
    rw [hk] at hkind
    by_cases ha : run.store.attached id = []
    · have hdelete : Store.delete id run.store = (.ok (), run.store.eraseAll [id]) :=
        hm.delete_eq hmem ha
      refine .made ⟨.relationshipDeleted id, none⟩ { run with store := run.store.eraseAll [id] }
        ⟨hid, ha⟩ ?_ ⟨⟨Model.deletable_singleton hmem ha, rfl⟩, rfl, rfl⟩
      rw [run_bind_of_ok (run_entity? id run), hkind]
      simp only
      rw [run_bind_of_ok (run_call_of_ok hdelete .store)]
      rfl
    · have hdelete : Store.delete id run.store =
          (.error (.stillConnected id (run.store.attached id).length), run.store) :=
        Model.delete_of_attached hmem ha
      refine .failed (.store (.stillConnected id (run.store.attached id).length))
        (by simp [Feasible, ha]) ?_
      rw [run_bind_of_ok (run_entity? id run), hkind]
      exact run_bind_of_error (run_call_of_error hdelete .store) _
  · have hnone : ∃ error, (applyAction oracle (.deleteRelationship id)).run run =
        (.error error, run) := by
      simp only [applyAction]
      rw [run_bind_of_ok (run_entity? id run), hkind]
      cases hk : run.store.kind? id with
      | none => exact ⟨_, rfl⟩
      | some kind =>
        cases kind with
        | element type => exact ⟨_, rfl⟩
        | relationship type => exact absurd (Model.kind?_eq_relationship ⟨type, hk⟩) hid
        | view => exact ⟨_, rfl⟩
    obtain ⟨error, hrun⟩ := hnone
    exact .failed error (by simp [Feasible, hid]) hrun

omit hm in
/-- Placing an element that is there on a view that is there succeeds. -/
theorem run_place_of_mem {view element : String} (he : element ∈ run.store.elementIds)
    (hv : view ∈ run.store.viewIds) (request : PlaceRequest) :
    (place view element request).run run =
      (.ok ⟨.placed element view (run.grid.boundsFor view request).1,
        some (run.store.allocate "visual").1⟩, { run with
          store := (run.store.addToView view element (run.grid.boundsFor view request).1).2
          grid := run.grid.commit view (run.grid.boundsFor view request).2
          touched := run.touched ++ [view] }) := by
  have hadd : Store.addToView view element (run.grid.boundsFor view request).1 run.store =
      (.ok (run.store.allocate "visual").1, (run.store.addToView view element
        (run.grid.boundsFor view request).1).2) := by
    change run.store.addToView view element (run.grid.boundsFor view request).1 = _
    rw [Model.addToView_of_mem _ he hv]
  rw [place, run_get_bind]
  simp only
  rw [run_bind_of_ok (run_call_of_ok hadd .store)]
  rfl

omit hm in
theorem run_place_of_not_mem {view element : String}
    (h : element ∉ run.store.elementIds ∨ view ∉ run.store.viewIds) (request : PlaceRequest) :
    ∃ error, (place view element request).run run = (.error error, run) := by
  obtain ⟨error, herror⟩ := Model.addToView_of_not_mem (run.grid.boundsFor view request).1 h
  have hadd : Store.addToView view element (run.grid.boundsFor view request).1 run.store =
      (.error error, run.store) := herror
  refine ⟨.store error, ?_⟩
  rw [place, run_get_bind]
  simp only
  rw [run_bind_of_error (run_call_of_error hadd .store)]

omit hm in
theorem run_addToView (oracle : Oracle) {view element v e : String}
    (hv : run.liveView? view = some v) (he : run.live? element = some e)
    (hmem : e ∈ run.store.elementIds ∧ v ∈ run.store.viewIds) (x y width height : Option Int) :
    (applyAction oracle (.addToView view element x y width height)).run run =
      (.ok ⟨.placed e v (run.grid.boundsFor v ⟨x, y, width, height⟩).1,
        some (run.store.allocate "visual").1⟩, { run with
          store := (run.store.addToView v e (run.grid.boundsFor v ⟨x, y, width, height⟩).1).2
          grid := run.grid.commit v (run.grid.boundsFor v ⟨x, y, width, height⟩).2
          touched := run.touched ++ [v] }) := by
  rw [applyAction, run_bind_of_ok (run_resolveView_of_some hv),
    run_bind_of_ok (run_resolve_of_some he _)]
  exact run_place_of_mem hmem.1 hmem.2 ⟨x, y, width, height⟩

theorem accounts_addToView (view element : String) (x y width height : Option Int) :
    Accounts oracle run (.addToView view element x y width height)
      (applyAction oracle (.addToView view element x y width height)) := by
  simp only [applyAction]
  cases hv : run.liveView? view with
  | none =>
    obtain ⟨error, hrun⟩ := run_resolveView_of_none hv
    exact .failed _ (by simp [Feasible, hv]) (run_bind_of_error hrun _)
  | some v =>
    cases he : run.live? element with
    | none =>
      refine .failed (.notFound element) (by simp [Feasible, he]) ?_
      rw [run_bind_of_ok (run_resolveView_of_some hv),
        run_bind_of_error (run_resolve_of_none he _)]
    | some e =>
      by_cases hmem : e ∈ run.store.elementIds ∧ v ∈ run.store.viewIds
      · exact .made _ _ ⟨⟨v, hv, hmem.2⟩, e, he, hmem.1⟩
          (run_addToView oracle hv he hmem x y width height)
          ⟨Model.stays_addToView hm _ hmem.1 hmem.2, rfl, rfl⟩
      · rw [not_and_or] at hmem
        obtain ⟨error, hplace⟩ := run_place_of_not_mem hmem ⟨x, y, width, height⟩
        refine .failed error (by simpa [Feasible, hv, he, ← not_and_or, and_comm] using hmem) ?_
        rw [run_bind_of_ok (run_resolveView_of_some hv), run_bind_of_ok (run_resolve_of_some he _)]
        exact hplace

theorem accounts_moveToFolder (id path : String) :
    Accounts oracle run (.moveToFolder id path) (applyAction oracle (.moveToFolder id path)) := by
  simp only [applyAction]
  cases hl : run.live? id with
  | none =>
    exact .failed _ (by simp [Feasible, hl]) (run_bind_of_error (run_resolve_of_none hl _) _)
  | some live =>
    cases hf : Folder.atPath? path run.store.folders with
    | none =>
      obtain ⟨error, hrun⟩ := run_folderAt_of_none hm.folderIds_nodup hf
      refine .failed error (by simp [Feasible, hf]) ?_
      rw [run_bind_of_ok (run_resolve_of_some hl _), run_bind_of_error hrun]
    | some folder =>
      obtain ⟨hrun, hfolder⟩ := run_folderAt_of_some hm.folderIds_nodup hf
      by_cases hmem : live ∈ run.store.entityIds
      · have hmove : Store.moveToFolder folder.id live run.store =
            (.ok (), (run.store.moveToFolder folder.id live).2) := by
          change run.store.moveToFolder folder.id live = _
          rw [Model.moveToFolder_of_mem hmem hfolder]
        refine .made ⟨.moved live path, none⟩
          { run with store := (run.store.moveToFolder folder.id live).2 }
          ⟨⟨live, hl, hmem⟩, by simp [hf]⟩ ?_ ⟨Model.stays_moveToFolder hm hmem hfolder, rfl, rfl⟩
        rw [run_bind_of_ok (run_resolve_of_some hl _), run_bind_of_ok hrun,
          run_bind_of_ok (run_call_of_ok hmove .store)]
        rfl
      · have hmove : Store.moveToFolder folder.id live run.store =
            (.error (.notFound live), run.store) := Model.moveToFolder_of_not_mem hmem
        refine .failed (.store (.notFound live)) (by simp [Feasible, hl, hmem]) ?_
        rw [run_bind_of_ok (run_resolve_of_some hl _), run_bind_of_ok hrun,
          run_bind_of_error (run_call_of_error hmove .store)]

/-- On a well-formed model an action is made if what it needs is there, and fails otherwise; then
it leaves no trace. -/
theorem accounts_applyAction (action : Action) :
    Accounts oracle run action (applyAction oracle action) := by
  cases action with
  | createElement label name ref text => exact accounts_createElement hm label name ref text
  | renameElement id name => exact accounts_renameElement hm id name
  | deleteElement id => exact accounts_deleteElement hm id
  | setProperty id key value => exact accounts_setProperty hm id key value
  | removeProperty id key => exact accounts_removeProperty hm id key
  | setDocumentation id text => exact accounts_setDocumentation hm id text
  | createRelationship label source target name =>
    exact accounts_createRelationship hm label source target name
  | deleteRelationship id => exact accounts_deleteRelationship hm id
  | createView name ref => exact accounts_createView hm name ref
  | addToView view element x y width height =>
    exact accounts_addToView hm view element x y width height
  | moveToFolder id path => exact accounts_moveToFolder hm id path

end

end ArchChange.Execution
