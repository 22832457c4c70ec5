import ArchChange.Proofs.Execution.Step
import ArchChange.Proofs.Execution.Trace
import ArchChange.Proofs.Model.Numbering
/-!
What a run does to its store, call by call: every change is an operation, on what the ids of an
action stand for, and no action allocates more than one id. This holds of all models, well formed
or not, and of actions that fail too.
-/
namespace ArchChange.Execution

open Model (Operation OperatesTo)

/-- The operations that an action may perform in a run. -/
def Run.Calls (run : Run Model) (op : Operation) : Action → Prop
  | .createElement _ name _ _ => (∃ type, op = .createElement type name) ∨
    ∃ text, op = .setDocumentation (run.store.allocate "element").1 text
  | .renameElement id name => ∃ live, run.live? id = some live ∧ op = .rename live name
  | .deleteElement id => ∃ live, run.live? id = some live ∧
    ∃ x, (x ∈ run.store.cascade live ∨ x = live) ∧ op = .delete x
  | .setProperty id key value => ∃ live, run.live? id = some live ∧ op = .setProperty live key value
  | .removeProperty id key => ∃ live, run.live? id = some live ∧ op = .removeProperty live key
  | .setDocumentation id text => ∃ live, run.live? id = some live ∧ op = .setDocumentation live text
  | .createRelationship _ source target name => ∃ type a b, run.live? source = some a ∧
    run.live? target = some b ∧ op = .createRelationship type a b (name.getD "")
  | .deleteRelationship id => op = .delete id
  | .createView name _ => op = .createView name
  | .addToView view element _ _ _ _ => ∃ v e bounds, run.liveView? view = some v ∧
    run.live? element = some e ∧ op = .addToView v e bounds
  | .moveToFolder id _ => ∃ live folder, run.live? id = some live ∧ op = .moveToFolder folder live

/-- The step changes the store by operations with the property alone. -/
def Performs {α : Type} (p : Operation → Prop) (step : Step Model α) (run : Run Model) : Prop :=
  OperatesTo p run.store (step.run run).2.store

variable {α β : Type} {p : Operation → Prop} {oracle : Oracle} {run run' : Run Model}

namespace Performs

open Step

theorem of_store_eq {step : Step Model α} (h : (step.run run).2.store = run.store) :
    Performs p step run := by
  rw [Performs, h]
  exact .refl p _

theorem bind {x : Step Model α} {f : α → Step Model β} (hx : Performs p x run)
    (hf : ∀ a run', x.run run = (.ok a, run') → Performs p (f a) run') :
    Performs p (x >>= f) run := by
  rcases h : x.run run with ⟨made, run'⟩
  have hfirst : OperatesTo p run.store run'.store := by rwa [Performs, h] at hx
  cases made with
  | error error =>
    rw [Performs, run_bind_of_error h]
    exact hfirst
  | ok a =>
    rw [Performs, run_bind_of_ok h]
    exact hfirst.trans (hf a run' h)

/-- Looking something up comes before an operation on it. -/
theorem resolve {id : String} {missing : String → ActionError} {f : String → Step Model β}
    (hf : ∀ live, run.live? id = some live → Performs p (f live) run) :
    Performs p (Step.resolve id missing >>= f) run := by
  cases hl : run.live? id with
  | none => exact of_store_eq (by rw [run_bind_of_error (run_resolve_of_none hl _)])
  | some live =>
    rw [Performs, run_bind_of_ok (run_resolve_of_some hl _)]
    exact hf live hl

theorem resolveView {id : String} {f : String → Step Model β}
    (hf : ∀ live, run.liveView? id = some live → Performs p (f live) run) :
    Performs p (Step.resolveView id >>= f) run := by
  cases hl : run.liveView? id with
  | none =>
    obtain ⟨error, hrun⟩ := run_resolveView_of_none hl
    exact of_store_eq (by rw [run_bind_of_error hrun])
  | some live =>
    rw [Performs, run_bind_of_ok (run_resolveView_of_some hl)]
    exact hf live hl

theorem call {wrap : StoreError → ActionError} {change : Model.Change α} (op : Operation)
    (hrun : ∀ m, (change m).2 = op.run m) (hp : p op) : Performs p (Step.call wrap change) run := by
  change OperatesTo p run.store (change run.store).2
  rw [hrun]
  exact .single op hp _

theorem call_of_read {wrap : StoreError → ActionError}
    {operation : Model → Except StoreError α × Model} (h : ∀ m, (operation m).2 = m) :
    Performs p (Step.call wrap operation) run :=
  of_store_eq (h run.store)

/-- Looking an entity up and editing it, the shape of many actions. -/
theorem edit {id : String} {change : String → Model.Change α} (op : String → Operation)
    (hrun : ∀ live m, (change live m).2 = (op live).run m)
    (hp : ∀ live, run.live? id = some live → p (op live)) (report : String → α → Done) :
    Performs p (Step.resolve id .notFound >>= fun live =>
      Step.call .store (change live) >>= fun a => Pure.pure (report live a)) run := by
  refine resolve fun live hl => ?_
  refine bind (call (op live) (hrun live) (hp live hl)) ?_
  exact fun _ _ _ => of_store_eq rfl

theorem document {id : String} (hp : ∀ text, p (.setDocumentation id text))
    (text : Option String) : Performs p (Step.document id text) run := by
  cases text with
  | none => exact of_store_eq rfl
  | some text =>
    by_cases he : text.isEmpty
    · simp only [Step.document, he, if_true]
      exact of_store_eq rfl
    · simp only [Step.document, he]
      exact call (.setDocumentation id text) (fun _ => rfl) (hp text)

theorem deleteAttached {l : List String} (hp : ∀ x ∈ l, p (.delete x)) :
    Performs p (Step.deleteAttached l) run := by
  induction l generalizing run with
  | nil => exact of_store_eq rfl
  | cons x l ih =>
    refine bind (call (.delete x) (fun _ => rfl) (hp x List.mem_cons_self)) ?_
    intro _ run' _
    exact ih fun y hy => hp y (List.mem_cons_of_mem _ hy)

theorem descend (folder : FolderRef) (names : List String) :
    Performs p (Step.descend folder names) run := by
  induction names generalizing folder run with
  | nil => exact of_store_eq rfl
  | cons name names ih =>
    refine bind (call_of_read fun _ => rfl) ?_
    intro children run' _
    cases children.find? fun f => f.name == name with
    | none => exact of_store_eq rfl
    | some child => exact ih child

theorem folderAt (path : String) : Performs p (Step.folderAt path) run := by
  unfold Step.folderAt
  cases segments path with
  | nil => exact of_store_eq rfl
  | cons name names =>
    rw [Performs, run_get_bind]
    cases (Store.topFolders run.store).find? fun f => Text.sameLetters f.name name with
    | none => exact of_store_eq rfl
    | some folder =>
      refine bind (descend folder names) ?_
      intro _ _ _
      exact of_store_eq rfl

/-- An action performs what it may call, on the live entities that its ids stand for. -/
theorem applyAction (oracle : Oracle) (run : Run Model) (action : Action) :
    Performs (run.Calls · action) (Execution.applyAction oracle action) run := by
  cases action with
  | createElement label name ref text =>
    simp only [Execution.applyAction]
    cases oracle.elementType? label with
    | none => exact of_store_eq rfl
    | some type =>
      refine bind (call (.createElement type name) (fun _ => rfl) (Or.inl ⟨type, rfl⟩)) ?_
      intro id run' hid
      have hnew : id = (run.store.allocate "element").1 := by
        cases hid
        rfl
      subst hnew
      refine bind (document (fun text => Or.inr ⟨text, rfl⟩) text) ?_
      intro _ _ _
      refine bind (of_store_eq ?_) fun _ _ _ => of_store_eq rfl
      rw [run_declareElement]
  | renameElement id name =>
    exact edit (.rename · name) (fun _ _ => rfl) (fun live hl => ⟨live, hl, rfl⟩)
      fun live _ => ⟨.renamed live name, none⟩
  | deleteElement id =>
    refine resolve fun live hl => ?_
    rw [Performs, run_get_bind]
    refine bind (deleteAttached fun x hx => ⟨live, hl, x, Or.inl hx, rfl⟩) ?_
    intro _ _ _
    refine bind (call (.delete live) (fun _ => rfl) ⟨live, hl, live, Or.inr rfl, rfl⟩) ?_
    exact fun _ _ _ => of_store_eq rfl
  | setProperty id key value =>
    exact edit (.setProperty · key value) (fun _ _ => rfl) (fun live hl => ⟨live, hl, rfl⟩)
      fun live _ => ⟨.propertySet key value live, none⟩
  | removeProperty id key =>
    exact edit (.removeProperty · key) (fun _ _ => rfl) (fun live hl => ⟨live, hl, rfl⟩)
      fun live removed =>
        ⟨if removed then .propertyRemoved key live else .propertyNotSet key live, none⟩
  | setDocumentation id text =>
    exact edit (.setDocumentation · text) (fun _ _ => rfl) (fun live hl => ⟨live, hl, rfl⟩)
      fun live _ => ⟨.documentationSet live, none⟩
  | createRelationship label source target name =>
    simp only [Execution.applyAction]
    cases oracle.relationshipType? label with
    | none => exact of_store_eq rfl
    | some type =>
      refine resolve fun a ha => resolve fun b hb => ?_
      refine bind (call (.createRelationship type a b (name.getD "")) (fun _ => rfl)
        ⟨type, a, b, ha, hb, rfl⟩) ?_
      exact fun _ _ _ => of_store_eq rfl
  | deleteRelationship id =>
    simp only [Execution.applyAction]
    refine bind (of_store_eq rfl) ?_
    intro entity run' hrun
    obtain rfl : run = run' := congrArg Prod.snd hrun
    cases entity.map Entity.kind with
    | none => exact of_store_eq rfl
    | some kind =>
      cases kind with
      | element type => exact of_store_eq rfl
      | relationship type =>
        refine bind (call (.delete id) (fun _ => rfl) rfl) ?_
        exact fun _ _ _ => of_store_eq rfl
      | view => exact of_store_eq rfl
  | createView name ref =>
    refine bind (call (.createView name) (fun _ => rfl) rfl) ?_
    intro id run' _
    refine bind (of_store_eq ?_) fun _ _ _ => of_store_eq rfl
    rw [run_declareView]
  | addToView view element x y width height =>
    refine resolveView fun v hv => resolve fun e he => ?_
    rw [place, Performs, run_get_bind]
    refine bind (call (.addToView v e _) (fun _ => rfl) ⟨v, e, _, hv, he, rfl⟩) ?_
    intro _ _ _
    exact bind (of_store_eq rfl) fun _ _ _ => of_store_eq rfl
  | moveToFolder id path =>
    refine resolve fun live hl => bind (folderAt path) ?_
    intro folder run' _
    refine bind (call (.moveToFolder folder live) (fun _ => rfl) ⟨live, folder, hl, rfl⟩) ?_
    exact fun _ _ _ => of_store_eq rfl

end Performs

/-! Allocations. -/

/-- The step changes the store by one operation at most, and then by such as allocate nothing. -/
def AllocatesOnce {α : Type} (step : Step Model α) (run : Run Model) : Prop :=
  ∃ m, (m = run.store ∨ ∃ op : Operation, m = op.run run.store) ∧
    OperatesTo (fun op => op.stem? = none) m (step.run run).2.store

namespace AllocatesOnce

open Step

theorem of_quiet {step : Step Model α} (h : Performs (fun op => op.stem? = none) step run) :
    AllocatesOnce step run :=
  ⟨run.store, Or.inl rfl, h⟩

theorem call_bind {wrap : StoreError → ActionError} {change : Model.Change α} (op : Operation)
    (hrun : ∀ m, (change m).2 = op.run m) {f : α → Step Model β}
    (hf : ∀ a run', Performs (fun op => op.stem? = none) (f a) run') :
    AllocatesOnce (Step.call wrap change >>= f) run := by
  refine ⟨op.run run.store, Or.inr ⟨op, rfl⟩, ?_⟩
  rcases h : (Step.call wrap change).run run with ⟨made, run'⟩
  have hstore : run'.store = op.run run.store := by
    rw [← hrun, ← congrArg (fun ended => ended.2.store) h]
    rfl
  rw [← hstore]
  cases made with
  | error error =>
    rw [run_bind_of_error h]
    exact .refl _ _
  | ok a =>
    rw [run_bind_of_ok h]
    exact hf a run'

theorem resolve {id : String} {missing : String → ActionError} {f : String → Step Model β}
    (hf : ∀ live, AllocatesOnce (f live) run) :
    AllocatesOnce (Step.resolve id missing >>= f) run := by
  cases hl : run.live? id with
  | none => exact of_quiet (.of_store_eq (by rw [run_bind_of_error (run_resolve_of_none hl _)]))
  | some live =>
    rw [AllocatesOnce, run_bind_of_ok (run_resolve_of_some hl _)]
    exact hf live

theorem resolveView {id : String} {f : String → Step Model β}
    (hf : ∀ live, AllocatesOnce (f live) run) :
    AllocatesOnce (Step.resolveView id >>= f) run := by
  cases hl : run.liveView? id with
  | none =>
    obtain ⟨error, hrun⟩ := run_resolveView_of_none hl
    exact of_quiet (.of_store_eq (by rw [run_bind_of_error hrun]))
  | some live =>
    rw [AllocatesOnce, run_bind_of_ok (run_resolveView_of_some hl)]
    exact hf live

/-- An action allocates one id at most. -/
theorem applyAction (oracle : Oracle) (run : Run Model) (action : Action) :
    AllocatesOnce (Execution.applyAction oracle action) run := by
  have hcalls := Performs.applyAction oracle run action
  cases action with
  | createElement label name ref text =>
    simp only [Execution.applyAction]
    cases oracle.elementType? label with
    | none => exact of_quiet (.of_store_eq rfl)
    | some type =>
      refine call_bind (.createElement type name) (fun _ => rfl) fun id run' => ?_
      refine .bind (.document (fun _ => rfl) text) fun _ _ _ => ?_
      refine .bind (.of_store_eq ?_) fun _ _ _ => .of_store_eq rfl
      rw [run_declareElement]
  | createRelationship label source target name =>
    simp only [Execution.applyAction]
    cases oracle.relationshipType? label with
    | none => exact of_quiet (.of_store_eq rfl)
    | some type =>
      refine resolve fun a => resolve fun b => ?_
      exact call_bind (.createRelationship type a b (name.getD "")) (fun _ => rfl)
        fun _ _ => .of_store_eq rfl
  | createView name ref =>
    refine call_bind (.createView name) (fun _ => rfl) fun id run' => ?_
    refine .bind (.of_store_eq ?_) fun _ _ _ => .of_store_eq rfl
    rw [run_declareView]
  | addToView view element x y width height =>
    refine resolveView fun v => resolve fun e => ?_
    rw [place, AllocatesOnce, run_get_bind]
    exact call_bind (.addToView v e _) (fun _ => rfl)
      fun _ _ => .bind (.of_store_eq rfl) fun _ _ _ => .of_store_eq rfl
  | renameElement id name =>
    refine of_quiet (hcalls.mono ?_)
    rintro _ ⟨live, -, rfl⟩
    rfl
  | deleteElement id =>
    refine of_quiet (hcalls.mono ?_)
    rintro _ ⟨live, -, x, -, rfl⟩
    rfl
  | setProperty id key value =>
    refine of_quiet (hcalls.mono ?_)
    rintro _ ⟨live, -, rfl⟩
    rfl
  | removeProperty id key =>
    refine of_quiet (hcalls.mono ?_)
    rintro _ ⟨live, -, rfl⟩
    rfl
  | setDocumentation id text =>
    refine of_quiet (hcalls.mono ?_)
    rintro _ ⟨live, -, rfl⟩
    rfl
  | deleteRelationship id =>
    refine of_quiet (hcalls.mono ?_)
    rintro _ rfl
    rfl
  | moveToFolder id path =>
    refine of_quiet (hcalls.mono ?_)
    rintro _ ⟨live, folder, -, rfl⟩
    rfl

/-- A step that allocates once takes the reach of its counter on by one at most. -/
theorem allocates {step : Step Model α} (h : AllocatesOnce step run)
    (hroom : run.store.reach + 1 < Model.counterSize) :
    Model.Allocates 1 run.store (step.run run).2.store := by
  obtain ⟨m, hm, hquiet⟩ := h
  rcases hm with rfl | ⟨op, rfl⟩
  · exact hquiet.allocates_of_quiet.mono (Nat.zero_le 1)
  · have hcost := op.cost_le_one
    exact ((Model.allocates_run op (by omega)).mono hcost).trans hquiet.allocates_of_quiet

end AllocatesOnce

/-! Drawing connections. -/

/-- The operation draws a connection. -/
def Connects (op : Operation) : Prop :=
  ∃ view relationship source target, op = .connectInView view relationship source target

theorem Run.Calls.not_connects {op : Operation} {action : Action} (h : run.Calls op action) :
    ¬ Connects op := by
  rintro ⟨view, relationship, source, target, rfl⟩
  cases action <;> simp [Run.Calls] at h

/-- The actions of a plan draw no connections. -/
theorem operatesTo_judge (run : Run Model) (stopOnError halted : Bool) (actions : List Action) :
    OperatesTo (¬ Connects ·) run.store
      (judge oracle stopOnError halted run actions).2.store := by
  induction actions generalizing halted run with
  | nil => exact .refl _ _
  | cons action actions ih =>
    cases halted with
    | true =>
      rw [judge_halted]
      exact .refl _ _
    | false =>
      rw [judge_cons rfl]
      exact ((Performs.applyAction oracle run action).mono fun _ h => h.not_connects).trans (ih _ _)

theorem operatesTo_connectAll (m : Model) (view : String) (children : List Visual)
    (drawn : List String) (added : Nat) (rs : List Relationship) :
    OperatesTo Connects m (connectAll view children drawn added rs m).2 := by
  induction rs generalizing added m with
  | nil => exact .refl _ _
  | cons r rs ih =>
    rw [connectAll]
    split
    · exact ih m added
    · split
      · next source target _ _ =>
        have hstep : OperatesTo Connects m (Model.connectInView view r.id source target m).2 :=
          .single (.connectInView view r.id source target) ⟨_, _, _, _, rfl⟩ m
        split
        · next error store hconnect =>
          change Model.connectInView view r.id source target m = _ at hconnect
          rwa [hconnect] at hstep
        · next id store hconnect =>
          change Model.connectInView view r.id source target m = _ at hconnect
          rw [hconnect] at hstep
          exact hstep.trans (ih store (added + 1))
      · exact ih m added

theorem connectView_eq (m : Model) (view : String) (rs : List Relationship) :
    connectView view rs m = match m.view? view with
      | none => ((0, some ⟨view, .listVisuals, .viewNotFound view⟩), m)
      | some v =>
        connectAll view v.children (v.connections.map Connection.relationshipId) 0 rs m := by
  have hchildren : Store.viewChildren view m = (m.viewChildren view, m) := rfl
  have hconnections : Store.viewConnections view m = (m.viewConnections view, m) := rfl
  unfold connectView
  rw [hchildren, Model.viewChildren]
  cases h : m.view? view with
  | none => rfl
  | some v => simp only [hconnections, Model.viewConnections, h]

theorem operatesTo_connectView (m : Model) (view : String) (rs : List Relationship) :
    OperatesTo Connects m (connectView view rs m).2 := by
  rw [connectView_eq]
  split
  · exact .refl _ _
  · exact operatesTo_connectAll m view _ _ 0 rs

theorem operatesTo_connectViews (m : Model) (rs : List Relationship) (report : ConnectReport)
    (views : List String) : OperatesTo Connects m (connectViews rs report views m).2 := by
  induction views generalizing report m with
  | nil => exact .refl _ _
  | cons view views ih => exact (operatesTo_connectView m view rs).trans (ih _ _)

/-- After its actions a run at most draws connections. -/
theorem operatesTo_conclude (options : Options) (result : Result) (run : Run Model) :
    OperatesTo Connects run.store (conclude options result run).2 := by
  unfold conclude
  split
  · exact operatesTo_connectViews run.store _ _ _
  · exact .refl _ _

/-- Whatever the options and the plan, a run changes its store by operations alone. -/
theorem operatesTo_execute (oracle : Oracle) (options : Options) (plan : ChangePlan) (m : Model) :
    OperatesTo (fun _ => True) m (execute oracle options plan m).2 := by
  unfold execute
  cases options.mode with
  | preview => exact .refl _ m
  | apply =>
    by_cases hready : plan.status = .ready
    · simp only [applyPlan_eq hready]
      exact ((operatesTo_judge (.start m) _ _ _).mono fun _ _ => trivial).trans
        ((operatesTo_conclude options _ _).mono fun _ _ => trivial)
    · simp only [applyPlan_of_not_ready hready]
      exact .refl _ m

end ArchChange.Execution
