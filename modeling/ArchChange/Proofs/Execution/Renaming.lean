import ArchChange.Proofs.Execution.History
import ArchChange.Proofs.Validation.Renaming
import Mathlib.Algebra.Group.End
import Mathlib.Data.Fintype.Sum
/-!
The names of references do not show. A plan in which the references that it declares have other
names is valid like the plan itself, and running it does and reports the same.
-/
namespace ArchChange

namespace Execution

open Validation

/-! Runs that differ in the names of references alone. -/

section

variable {σ α β : Type} {f : String → String} {run : Run σ} {id : String}

/-- The run with other names for its references. -/
def Run.rename (f : String → String) (run : Run σ) : Run σ :=
  { run with
    elementRefs := renameKeys f run.elementRefs
    viewRefs := renameKeys f run.viewRefs }

/-- The step `x'` does in the renamed run what `x` does in the run. -/
def Alike (f : String → String) (x' x : Step σ α) (run : Run σ) : Prop :=
  x'.run (run.rename f) = ((x.run run).1, (x.run run).2.rename f)

namespace Alike

open Step

theorem bind {x' x : Step σ α} {g' g : α → Step σ β} (hx : Alike f x' x run)
    (hg : ∀ a run, Alike f (g' a) (g a) run) : Alike f (x' >>= g') (x >>= g) run := by
  unfold Alike at hx
  rcases h : x.run run with ⟨made, run'⟩
  rw [h] at hx
  cases made with
  | error error => rw [Alike, run_bind_of_error hx, run_bind_of_error h]
  | ok a =>
    rw [Alike, run_bind_of_ok hx, run_bind_of_ok h]
    exact hg a run'

theorem call (wrap : StoreError → ActionError) (operation : σ → Except StoreError α × σ) :
    Alike f (Step.call wrap operation) (Step.call wrap operation) run := rfl

theorem declareElement (ref : Option String) :
    Alike f (Step.declareElement id (ref.map f)) (Step.declareElement id ref) run := by
  cases ref <;> rfl

theorem declareView (ref : Option String) :
    Alike f (Step.declareView id (ref.map f)) (Step.declareView id ref) run := by
  cases ref <;> rfl

end Alike

variable [Store σ]

/-- The id stands for the same thing under its other name. -/
def Run.Reads (run : Run σ) (f : String → String) (id : String) : Prop :=
  ∃ live, run.live? id = some live ∧ (run.rename f).live? (f id) = some live

/-- The id stands for the same view under its other name. -/
def Run.ReadsView (run : Run σ) (f : String → String) (id : String) : Prop :=
  ∃ live, run.liveView? id = some live ∧ (run.rename f).liveView? (f id) = some live

/-- What the ids of an action stand for, they stand for under their other names too. -/
def Run.ReadsAll (run : Run σ) (f : String → String) : Action → Prop
  | .createElement _ _ _ _ | .createView _ _ => True
  | .createRelationship _ source target _ => run.Reads f source ∧ run.Reads f target
  -- a relationship to delete is not looked up among the references
  | .deleteRelationship id => f id = id
  | .addToView view element _ _ _ _ => run.ReadsView f view ∧ run.Reads f element
  | .renameElement id _ | .deleteElement id | .setProperty id _ _ | .removeProperty id _
  | .setDocumentation id _ | .moveToFolder id _ => run.Reads f id

namespace Alike

open Step

theorem resolve {missing' missing : String → ActionError} {g' g : String → Step σ β}
    (h : run.Reads f id) (hg : ∀ live, Alike f (g' live) (g live) run) :
    Alike f (Step.resolve (f id) missing' >>= g') (Step.resolve id missing >>= g) run := by
  obtain ⟨live, hl, hl'⟩ := h
  rw [Alike, run_bind_of_ok (run_resolve_of_some hl' _), run_bind_of_ok (run_resolve_of_some hl _)]
  exact hg live

theorem resolveView {g' g : String → Step σ β} (h : run.ReadsView f id)
    (hg : ∀ live, Alike f (g' live) (g live) run) :
    Alike f (Step.resolveView (f id) >>= g') (Step.resolveView id >>= g) run := by
  obtain ⟨live, hl, hl'⟩ := h
  rw [Alike, run_bind_of_ok (run_resolveView_of_some hl'),
    run_bind_of_ok (run_resolveView_of_some hl)]
  exact hg live

/-- Looking something up and changing it, the shape of many actions. -/
theorem edit {change : String → σ → Except StoreError α × σ} {report : String → α → Done}
    (h : run.Reads f id) : Alike f
      (Step.resolve (f id) .notFound >>= fun live =>
        Step.call .store (change live) >>= fun a => Pure.pure (report live a))
      (Step.resolve id .notFound >>= fun live =>
        Step.call .store (change live) >>= fun a => Pure.pure (report live a)) run :=
  resolve h fun _ => bind (call ..) fun _ _ => rfl

theorem document (text : Option String) :
    Alike f (Step.document id text) (Step.document id text) run := by
  cases text with
  | none => rfl
  | some text =>
    by_cases he : text.isEmpty
    · simp only [Step.document, he, if_true]
      rfl
    · simp only [Step.document, he]
      exact call ..

theorem deleteAttached (l : List String) :
    Alike f (Step.deleteAttached l) (Step.deleteAttached l) run := by
  induction l generalizing run with
  | nil => rfl
  | cons r l ih => exact bind (call ..) fun _ _ => ih

theorem descend (folder : FolderRef) (names : List String) :
    Alike f (Step.descend folder names) (Step.descend folder names) run := by
  induction names generalizing folder run with
  | nil => rfl
  | cons name names ih =>
    refine bind (call ..) ?_
    intro children run
    cases children.find? fun f => f.name == name with
    | none => rfl
    | some child => exact ih child

theorem folderAt (path : String) : Alike f (Step.folderAt path) (Step.folderAt path) run := by
  unfold Step.folderAt
  cases segments path with
  | nil => rfl
  | cons name names =>
    have hstore : (run.rename f).store = run.store := rfl
    rw [Alike, run_get_bind, run_get_bind, hstore]
    cases (Store.topFolders run.store).find? fun f => Text.sameLetters f.name name with
    | none => rfl
    | some folder => exact bind (descend folder names) fun _ _ => rfl

theorem place (view element : String) (request : PlaceRequest) :
    Alike f (Step.place view element request) (Step.place view element request) run := by
  have hgrid : (run.rename f).grid = run.grid := rfl
  rw [Step.place, Alike, run_get_bind, run_get_bind, hgrid]
  exact bind (call ..) fun _ _ => rfl

/-- An action does the same under other names if its ids stand for the same. -/
theorem applyAction (oracle : Oracle) {action : Action} (h : run.ReadsAll f action) :
    Alike f (Execution.applyAction oracle (action.rename f)) (Execution.applyAction oracle action)
      run := by
  cases action with
  | createElement label name ref text =>
    simp only [Action.rename, Execution.applyAction]
    cases oracle.elementType? label with
    | none => rfl
    | some type =>
      refine bind (call ..) fun id _ => bind (document text) fun _ _ => ?_
      exact bind (declareElement ref) fun _ _ => rfl
  | renameElement id name => exact edit h
  | deleteElement id =>
    refine resolve h fun live => ?_
    rw [Alike, run_get_bind, run_get_bind]
    refine bind (deleteAttached _) fun _ _ => ?_
    exact bind (call ..) fun _ _ => rfl
  | setProperty id key value => exact edit h
  | removeProperty id key => exact edit h
  | setDocumentation id text => exact edit h
  | createRelationship label source target name =>
    simp only [Action.rename, Execution.applyAction]
    cases oracle.relationshipType? label with
    | none => rfl
    | some type =>
      refine resolve h.1 fun a => resolve h.2 fun b => ?_
      exact bind (call ..) fun _ _ => rfl
  | deleteRelationship id =>
    have hid : f id = id := h
    simp only [Action.rename, Execution.applyAction, hid]
    refine bind rfl fun entity run => ?_
    cases entity.map Entity.kind with
    | none => rfl
    | some kind =>
      cases kind with
      | element type => rfl
      | relationship type => exact bind (call ..) fun _ _ => rfl
      | view => rfl
  | createView name ref =>
    exact bind (call ..) fun id _ => bind (declareView ref) fun _ _ => rfl
  | addToView view element x y width height =>
    exact resolveView h.1 fun v => resolve h.2 fun e => place v e _
  | moveToFolder id path =>
    refine resolve h fun live => bind (folderAt path) fun folder _ => ?_
    exact bind (call ..) fun _ _ => rfl

end Alike

end

/-! A whole run. -/

section

variable {oracle : Oracle} {f : String → String} {actions : List Action}

/-- The verdicts on renamed actions are those on the actions. -/
theorem judge_rename (stopOnError halted : Bool) (run : Run Model)
    (h : ∀ k, (hk : k < actions.length) →
      (judge oracle false false run (actions.take k)).2.ReadsAll f actions[k]) :
    judge oracle stopOnError halted (run.rename f) (actions.map (Action.rename f)) =
      ((judge oracle stopOnError halted run actions).1.map fun p => (p.1.rename f, p.2),
        (judge oracle stopOnError halted run actions).2.rename f) := by
  induction actions generalizing halted run with
  | nil => rfl
  | cons action actions ih =>
    cases halted with
    | true => simp [judge_halted, Function.comp_def]
    | false =>
      have hfirst : Alike f _ _ run := Alike.applyAction oracle (h 0 (Nat.succ_pos _))
      rcases hmade : (applyAction oracle action).run run with ⟨made, run'⟩
      have hrest : ∀ k, (hk : k < actions.length) →
          (judge oracle false false run' (actions.take k)).2.ReadsAll f actions[k] := by
        intro k hk
        have hnext := h (k + 1) (Nat.succ_lt_succ hk)
        rwa [List.take_succ_cons, judge_cons_false, hmade] at hnext
      rw [Alike, List.getElem_cons_zero, hmade] at hfirst
      rw [List.map_cons, judge_cons hfirst, judge_cons hmade, ih _ _ hrest]
      rfl

theorem outcomesFrom_rename (index : Nat) (judged : List (Action × Verdict)) :
    outcomesFrom index (judged.map fun p => (p.1.rename f, p.2)) = outcomesFrom index judged := by
  induction judged generalizing index with
  | nil => rfl
  | cons p judged ih =>
    rw [List.map_cons, outcomesFrom, outcomesFrom, Action.op_rename, ih]

end

section

variable {oracle : Oracle} {scope : Option Scope} {m : Model} {t : Tables} {run : Run Model}
  {gone : String → Prop} {f : String → String} {id : String} {actions : List Action} {k : Nat}

namespace Tracks

variable (h : Tracks m t run gone) (hf : Keeps m f)

include h hf

/-- What resolves in the tables stands for the same under its other name: what is looked up is a
reference, or it has kept its name. -/
theorem reads {p : EntityClass → Prop} (hr : Resolves m scope t p id) : run.Reads f id := by
  obtain ⟨c, live, hs, -⟩ := h.standsFor hr
  refine ⟨live, hs.live?, ?_⟩
  have hlive := hs.live?
  rw [Run.live?] at hlive ⊢
  rw [Run.rename, lookup_renameKeys hf.injective, lookup_renameKeys hf.injective]
  rcases hs.origin with href | ⟨-, -, hmem, -⟩
  · have hfound : ((run.elementRefs.lookup id).or (run.viewRefs.lookup id)).isSome := by
      rw [Option.isSome_or, Bool.or_eq_true]
      cases c with
      | element => exact Or.inl (Option.isSome_of_eq_some href)
      | view => exact Or.inr (Option.isSome_of_eq_some href)
      | relationship => cases href
    rw [Option.or_of_isSome hfound] at hlive ⊢
    exact hlive
  · rw [hf.live id hmem]
    exact hlive

theorem readsView (hd : ¬ t.isDeleted id) (hv : id ∈ t.viewRefs ∨
    (¬ t.declares id ∧ ∃ e, m.entity? id = some e ∧ e.kind = .view)) : run.ReadsView f id := by
  obtain ⟨live, hlive, -⟩ := h.mem_viewIds hd hv
  refine ⟨live, hlive, ?_⟩
  rw [Run.liveView?] at hlive ⊢
  rw [Run.rename, lookup_renameKeys hf.injective]
  rcases hv with hv | ⟨-, e, he, -⟩
  · have hfound : (run.viewRefs.lookup id).isSome := (h.refers id .view).mp hv
    rw [Option.or_of_isSome hfound] at hlive ⊢
    exact hlive
  · rw [hf.of_entity? he]
    exact hlive

theorem readsAll {action : Action} (ha : Accepts m scope t action) : run.ReadsAll f action := by
  cases action with
  | createElement type name ref text => trivial
  | createView name ref => trivial
  | createRelationship type source target name => exact ⟨h.reads hf ha.1, h.reads hf ha.2⟩
  | deleteRelationship id =>
    obtain ⟨-, -, e, type, he, -⟩ := ha
    exact hf.of_entity? he
  | addToView view element x y width height =>
    exact ⟨h.readsView hf ha.1.1 ha.1.2, h.reads hf ha.2⟩
  | renameElement id name => exact h.reads hf ha
  | deleteElement id => exact h.reads hf ha
  | setProperty id key value => exact h.reads hf ha
  | removeProperty id key => exact h.reads hf ha
  | setDocumentation id text => exact h.reads hf ha
  | moveToFolder id path => exact h.reads hf ha

end Tracks

/-- Running a plan that was checked does and reports the same under other names. -/
theorem Checked.execute_rename {plan : ChangePlan} (h : Checked oracle scope m plan.actions)
    (hf : Keeps m f) (hready : plan.status = .ready) {options : Options}
    (hmode : options.mode = .apply) :
    execute oracle options (plan.rename f) m = execute oracle options plan m := by
  have hreads : ∀ k, (hk : k < plan.actions.length) →
      (runAfter oracle m plan.actions k).ReadsAll f plan.actions[k] := by
    intro k hk
    exact (h.tracks (Nat.le_of_lt hk)).readsAll hf (h.accepts hk)
  have hjudge : judge oracle options.stopOnError false (.start m) (plan.rename f).actions = _ :=
    judge_rename options.stopOnError false (.start m) hreads
  have hready' : (plan.rename f).status = .ready := hready
  simp only [execute, hmode]
  rw [applyPlan_eq hready', applyPlan_eq hready, hjudge, outcomesFrom_rename]
  rfl

end

/-! The names that a plan declares. -/

/-- Some names can be given other names while all names stay apart and the rest is left. -/
theorem exists_injective_of_injOn {α : Type} [DecidableEq α] {names : Finset α} {f : α → α}
    (hf : Set.InjOn f names) : ∃ g : α → α, Function.Injective g ∧ (∀ x ∈ names, g x = f x) ∧
      ∀ x ∉ names, x ∉ names.image f → g x = x := by
  let both := names ∪ names.image f
  have hmaps : Set.MapsTo (fun x : both => f x.1) {x | x.1 ∈ names} both := by
    intro x hx
    exact Finset.mem_union_right _ (Finset.mem_image_of_mem f hx)
  have hinjOn : Set.InjOn (fun x : both => f x.1) {x | x.1 ∈ names} := by
    intro x hx y hy hxy
    exact Subtype.ext (hf hx hy hxy)
  obtain ⟨e, he⟩ := hmaps.exists_equiv_extend_of_card_eq (Fintype.card_coe both) hinjOn
  refine ⟨Equiv.Perm.ofSubtype e, Equiv.injective _, ?_, ?_⟩
  · intro x hx
    have hboth : x ∈ both := Finset.mem_union_left _ hx
    rw [Equiv.Perm.ofSubtype_apply_of_mem e hboth]
    exact he ⟨x, hboth⟩ hx
  · intro x hx hx'
    exact Equiv.Perm.ofSubtype_apply_of_not_mem e fun hboth =>
      (Finset.mem_union.mp hboth).elim hx hx'

/-- The renaming gives the references that actions declare other names, all different, which may
be ids but are neither ids of the live model nor other ids in the actions. -/
structure Renames (m : Model) (actions : List Action) (f : String → String) : Prop where
  others : ∀ id, ¬ Declared actions id → f id = id
  injOn : Set.InjOn f {ref | Declared actions ref}
  isId : ∀ ref, Declared actions ref → ¬ Text.isBlank (f ref) ∧ (f ref).length ≤ 128
  notLive : ∀ ref, Declared actions ref → f ref ∉ m.entityIds
  notUsed : ∀ ref, Declared actions ref → ∀ action ∈ actions, f ref ∈ action.ids →
    Declared actions (f ref)

namespace Renames

variable {m : Model} {actions : List Action} {f : String → String} (h : Renames m actions f)

include h

theorem givesIds : GivesIds f := by
  intro id
  by_cases hid : Declared actions id
  · exact Or.inr (h.isId id hid)
  · exact Or.inl (h.others id hid)

/-- Where no reference is an id of the live model, the renaming agrees on the actions with one
that keeps all ids apart. -/
theorem exists_keeps (hrefs : ∀ ref, Declared actions ref → ref ∉ m.entityIds) :
    ∃ g, Keeps m g ∧ actions.map (Action.rename f) = actions.map (Action.rename g) := by
  let names := (elementRefs actions ++ viewRefs actions).toFinset
  have hnames : ∀ ref, ref ∈ names ↔ Declared actions ref := by simp [names, Declared]
  have hinjOn : Set.InjOn f names := by
    intro ref href ref' href' heq
    exact h.injOn ((hnames ref).mp href) ((hnames ref').mp href') heq
  obtain ⟨g, hg, hrenamed, hkept⟩ := exists_injective_of_injOn hinjOn
  simp only [hnames, Finset.mem_image] at hrenamed hkept
  refine ⟨g, ⟨hg, ?_⟩, List.map_congr_left fun action haction => Action.rename_congr ?_⟩
  · intro id hid
    refine hkept id (fun hdeclared => hrefs id hdeclared hid) ?_
    rintro ⟨ref, href, rfl⟩
    exact h.notLive ref href hid
  · intro id hid
    by_cases hdeclared : Declared actions id
    · exact (hrenamed id hdeclared).symm
    · refine (h.others id hdeclared).trans (hkept id hdeclared ?_).symm
      rintro ⟨ref, href, rfl⟩
      exact hdeclared (h.notUsed ref href action haction hid)

end Renames

/-- References are bound names. Where a valid plan that is ready declares no ids of the live model
and its references are given other names, the plan is valid with warnings in the same places, and
to apply it leaves the same model and gives the same result. -/
theorem renameIds_invisible (oracle : Oracle) (scope : Option Scope) (value : Json) (m : Model)
    (hm : m.WellFormed) (hvalid : (validate oracle m scope value).isValid = true) :
    ∃ plan, (validate oracle m scope value).plan = some plan ∧ (plan.status = .ready →
      (∀ ref, Declared plan.actions ref → ref ∉ m.entityIds) →
      ∀ f, Renames m plan.actions f →
        let report := validate oracle m scope (Plan.renameIds f value)
        report.isValid = true ∧ report.plan = some (plan.rename f) ∧
        report.warnings.map Issue.place =
          (validate oracle m scope value).warnings.map Issue.place ∧
        ∀ options : Options, options.mode = .apply →
          execute oracle options (plan.rename f) m = execute oracle options plan m) := by
  obtain ⟨plan, hschema, hplan, hchecked⟩ := exists_checked_of_isValid hm hvalid
  refine ⟨plan, hplan, fun hready hrefs f hf => ?_⟩
  obtain ⟨g, hg, hactions⟩ := hf.exists_keeps hrefs
  have hsame : plan.rename f = plan.rename g := by
    rw [ChangePlan.rename, hactions]
    rfl
  obtain ⟨hisValid, hrenamed, hwarnings⟩ :=
    validate_renameIds scope hg hf.givesIds hschema hsame
  refine ⟨hisValid.trans hvalid, hrenamed, hwarnings, fun options hmode => ?_⟩
  rw [hsame]
  exact hchecked.execute_rename hg hready hmode

/-- The references to a new element and a new view take the name of the view and the id that the
element is going to get. -/
theorem renameIds_invisible_sample :
    let oracle : Oracle :=
      ⟨fun _ _ _ => true, fun _ => some .businessActor, fun _ => some .association⟩
    let operations : List Model.Operation := [.createElement .businessActor "Clerk"]
    let m := operations.foldl Model.Operation.run (.new "Office")
    let plan : ChangePlan := ⟨.v1, .ready, "", [], [
      .createElement "Actor" "Agent" (some "agent") none,
      .createView "Map" (some "map"),
      .createRelationship "Association" "agent" "element-1" none,
      .addToView "map" "agent" none none none none,
      .addToView "map" "element-1" none none none none]⟩
    let f : String → String := fun id =>
      if id = "agent" then "map" else if id = "map" then "element-2" else id
    let report := validate oracle m none (Plan.renameIds f plan.toJson)
    m.WellFormed ∧ (validate oracle m none plan.toJson).isValid = true ∧
      (validate oracle m none plan.toJson).plan = some plan ∧
      Renames m plan.actions f ∧ report.isValid = true ∧ report.plan = some (plan.rename f) ∧
      execute oracle ⟨.apply, true, true⟩ (plan.rename f) m =
        execute oracle ⟨.apply, true, true⟩ plan m := by
  intro oracle operations m plan f report
  have hm : m.WellFormed := ((Model.new_wellFiled "Office").runAll operations).toWellFormed
  have hvalid : (validate oracle m none plan.toJson).isValid = true := by decide +kernel
  have hdecoded : (validate oracle m none plan.toJson).plan = some plan := by decide +kernel
  have hdeclared : ∀ ref, Declared plan.actions ref ↔ ref = "agent" ∨ ref = "map" := by
    intro ref
    have hlists : Declared plan.actions ref ↔ ref ∈ ["agent"] ∨ ref ∈ ["map"] := Iff.rfl
    simpa using hlists
  have hrefs : ∀ ref, Declared plan.actions ref → ref ∉ m.entityIds := by
    intro ref href
    rcases (hdeclared ref).mp href with rfl | rfl <;> decide +kernel
  have hf : Renames m plan.actions f := by
    constructor
    · intro id hid
      rw [hdeclared, not_or] at hid
      simp [f, hid]
    · intro ref href ref' href' heq
      rcases (hdeclared ref).mp href with rfl | rfl <;>
        rcases (hdeclared ref').mp href' with rfl | rfl <;> simp_all [f]
    · intro ref href
      rcases (hdeclared ref).mp href with rfl | rfl <;> decide +kernel
    · intro ref href
      rcases (hdeclared ref).mp href with rfl | rfl <;> decide +kernel
    · intro ref href
      rw [hdeclared]
      rcases (hdeclared ref).mp href with rfl | rfl <;> decide +kernel
  obtain ⟨decoded, hplan, h⟩ := renameIds_invisible oracle none plan.toJson m hm hvalid
  obtain rfl : plan = decoded := Option.some.inj (hdecoded.symm.trans hplan)
  obtain ⟨hisValid, hrenamed, -, hsame⟩ := h rfl hrefs f hf
  exact ⟨hm, hvalid, hdecoded, hf, hisValid, hrenamed, hsame ⟨.apply, true, true⟩ rfl⟩

end Execution

end ArchChange
