import ArchChange.Proofs.Execution.Step
import ArchChange.Proofs.Execution.Trace
/-!
Where a run places things. Only a placement that succeeds moves the grid on and touches a view, and
it says so; hence the views that a run has touched are those that its verdicts tell of.
-/
namespace ArchChange.Execution

/-- The view that something was placed on. -/
def Effect.placedOn? : Effect → Option String
  | placed _ view _ => some view
  | _ => none

def Verdict.placedOn? : Verdict → Option String
  | applied (.done effect) _ => effect.placedOn?
  | _ => none

/-- The step leaves the grid and the touched views as they are, and what it yields fulfils `P`. -/
def PlacesNothing {σ α : Type} (P : α → Prop) (step : Step σ α) : Prop :=
  ∀ run, (step.run run).2.grid = run.grid ∧ (step.run run).2.touched = run.touched ∧
    ∀ a, (step.run run).1 = .ok a → P a

namespace PlacesNothing

open Step

variable {σ α β : Type} {P : α → Prop} {Q : β → Prop}

theorem pure {a : α} (h : P a) : PlacesNothing P (Pure.pure a : Step σ α) := by
  refine fun run => ⟨rfl, rfl, ?_⟩
  rintro _ ⟨⟩
  exact h

theorem throw (error : ActionError) :
    PlacesNothing P (MonadExcept.throw error : Step σ α) := by
  refine fun run => ⟨rfl, rfl, ?_⟩
  rintro _ ⟨⟩

theorem bind {x : Step σ α} {f : α → Step σ β} (hx : PlacesNothing P x)
    (hf : ∀ a, PlacesNothing Q (f a)) : PlacesNothing Q (x >>= f) := by
  intro run
  obtain ⟨hgrid, htouched, -⟩ := hx run
  rcases hrun : x.run run with ⟨made, run'⟩
  rw [hrun] at hgrid htouched
  cases made with
  | error error =>
    rw [run_bind_of_error hrun]
    exact ⟨hgrid, htouched, fun _ hok => nomatch hok⟩
  | ok a =>
    rw [run_bind_of_ok hrun]
    obtain ⟨hgrid', htouched', hyields⟩ := hf a run'
    exact ⟨hgrid'.trans hgrid, htouched'.trans htouched, hyields⟩

theorem get_bind {f : Run σ → Step σ β} (hf : ∀ run, PlacesNothing Q (f run)) :
    PlacesNothing Q (get >>= f) := fun run => hf run run

/-- What a part of an action yields does not matter. -/
theorem of_eq {step : Step σ α} (h : ∀ run, (step.run run).2.grid = run.grid ∧
    (step.run run).2.touched = run.touched) : PlacesNothing (fun _ => True) step :=
  fun run => ⟨(h run).1, (h run).2, fun _ _ => trivial⟩

theorem call (wrap : StoreError → ActionError) (operation : σ → Except StoreError α × σ) :
    PlacesNothing (fun _ => True) (Step.call wrap operation) :=
  of_eq fun _ => ⟨rfl, rfl⟩

theorem declareElement (id : String) (ref : Option String) :
    PlacesNothing (fun _ => True) (Step.declareElement id ref : Step σ Unit) :=
  of_eq fun run => by rw [run_declareElement]; exact ⟨rfl, rfl⟩

theorem declareView (id : String) (ref : Option String) :
    PlacesNothing (fun _ => True) (Step.declareView id ref : Step σ Unit) :=
  of_eq fun run => by rw [run_declareView]; exact ⟨rfl, rfl⟩

variable [Store σ]

theorem entity? (id : String) :
    PlacesNothing (fun _ => True) (Step.entity? id : Step σ (Option Entity)) :=
  of_eq fun _ => ⟨rfl, rfl⟩

theorem resolve (id : String) (missing : String → ActionError) :
    PlacesNothing (fun _ => True) (Step.resolve id missing : Step σ String) := by
  refine of_eq fun run => ?_
  cases hl : run.live? id with
  | none => rw [run_resolve_of_none hl]; exact ⟨rfl, rfl⟩
  | some live => rw [run_resolve_of_some hl]; exact ⟨rfl, rfl⟩

theorem resolveView (id : String) :
    PlacesNothing (fun _ => True) (Step.resolveView id : Step σ String) := by
  refine of_eq fun run => ?_
  cases hv : run.liveView? id with
  | none =>
    obtain ⟨error, hrun⟩ := run_resolveView_of_none hv
    rw [hrun]
    exact ⟨rfl, rfl⟩
  | some live =>
    rw [run_resolveView_of_some hv]
    exact ⟨rfl, rfl⟩

theorem document (id : String) (text : Option String) :
    PlacesNothing (fun _ => True) (Step.document id text : Step σ Unit) := by
  cases text with
  | none => exact pure trivial
  | some text =>
    by_cases he : text.isEmpty
    · simp only [Step.document, he, if_true]
      exact pure trivial
    · simp only [Step.document, he]
      exact call _ _

theorem deleteAttached (l : List String) :
    PlacesNothing (fun _ => True) (Step.deleteAttached l : Step σ Unit) := by
  induction l with
  | nil => exact pure trivial
  | cons x l ih => exact bind (call _ _) fun _ => ih

theorem descend (folder : FolderRef) (names : List String) :
    PlacesNothing (fun _ => True) (Step.descend folder names : Step σ FolderRef) := by
  induction names generalizing folder with
  | nil => exact pure trivial
  | cons name names ih =>
    refine bind (call _ _) fun children => ?_
    cases children.find? fun f => f.name == name with
    | none => exact throw _
    | some child => exact ih child

theorem folderAt (path : String) :
    PlacesNothing (fun _ => True) (Step.folderAt path : Step σ String) := by
  unfold Step.folderAt
  cases segments path with
  | nil => exact throw _
  | cons name names =>
    refine get_bind fun run => ?_
    cases (Store.topFolders run.store).find? fun f => Text.sameLetters f.name name with
    | none => exact throw _
    | some folder => exact bind (descend folder names) fun _ => pure trivial

/-- All actions but placements place nothing. -/
theorem applyAction (oracle : Oracle) {action : Action} (h : action.op ≠ .addToView) :
    PlacesNothing (fun done => done.effect.placedOn? = none)
      (Execution.applyAction oracle action : Step σ Done) := by
  cases action with
  | createElement label name ref text =>
    simp only [Execution.applyAction]
    cases oracle.elementType? label with
    | none => exact throw _
    | some type =>
      refine bind (call _ _) fun id => bind (document id text) fun _ => ?_
      exact bind (declareElement id ref) fun _ => pure rfl
  | renameElement id name => exact bind (resolve _ _) fun _ => bind (call _ _) fun _ => pure rfl
  | deleteElement id =>
    refine bind (resolve _ _) fun target => get_bind fun run => ?_
    exact bind (deleteAttached _) fun _ => bind (call _ _) fun _ => pure rfl
  | setProperty id key value => exact bind (resolve _ _) fun _ => bind (call _ _) fun _ => pure rfl
  | removeProperty id key =>
    refine bind (resolve _ _) fun _ => bind (call _ _) fun removed => pure ?_
    cases removed <;> rfl
  | setDocumentation id text => exact bind (resolve _ _) fun _ => bind (call _ _) fun _ => pure rfl
  | createRelationship label source target name =>
    simp only [Execution.applyAction]
    cases oracle.relationshipType? label with
    | none => exact throw _
    | some type =>
      refine bind (resolve _ _) fun _ => bind (resolve _ _) fun _ => ?_
      exact bind (call _ _) fun _ => pure rfl
  | deleteRelationship id =>
    refine bind (entity? id) fun e => ?_
    cases e.map Entity.kind with
    | none => exact throw _
    | some kind =>
      cases kind with
      | element type => exact throw _
      | relationship type => exact bind (call _ _) fun _ => pure rfl
      | view => exact throw _
  | createView name ref =>
    exact bind (call _ _) fun id => bind (declareView id ref) fun _ => pure rfl
  | addToView view element x y width height => exact absurd rfl h
  | moveToFolder id path =>
    refine bind (resolve _ _) fun _ => bind (folderAt path) fun _ => ?_
    exact bind (call _ _) fun _ => pure rfl

end PlacesNothing

/-- The step tells of the view that it touches. -/
def TellsTouched {σ : Type} (step : Step σ Done) : Prop :=
  ∀ run, (step.run run).2.touched =
    run.touched ++ (applyVerdict (step.run run).1).placedOn?.toList

theorem PlacesNothing.tellsTouched {σ : Type} {step : Step σ Done}
    (h : PlacesNothing (fun done => done.effect.placedOn? = none) step) : TellsTouched step := by
  intro run
  obtain ⟨-, htouched, hyields⟩ := h run
  have hnone : (applyVerdict (step.run run).1).placedOn? = none := by
    cases hmade : (step.run run).1 with
    | error error => rfl
    | ok done => exact hyields done hmade
  rw [htouched, hnone, Option.toList_none, List.append_nil]

theorem PlacesNothing.bind_tellsTouched {σ α : Type} {P : α → Prop} {x : Step σ α}
    {f : α → Step σ Done} (hx : PlacesNothing P x) (hf : ∀ a, TellsTouched (f a)) :
    TellsTouched (x >>= f) := by
  intro run
  obtain ⟨-, htouched, -⟩ := hx run
  rcases hrun : x.run run with ⟨made, run'⟩
  rw [hrun] at htouched
  cases made with
  | error error =>
    rw [Step.run_bind_of_error hrun, htouched]
    exact (List.append_nil _).symm
  | ok a =>
    rw [Step.run_bind_of_ok hrun, hf a run', htouched]

section

variable {σ : Type} [Store σ] {oracle : Oracle} {stopOnError halted : Bool} {run : Run σ}

theorem tellsTouched_place (view element : String) (request : PlaceRequest) :
    TellsTouched (Step.place view element request : Step σ Done) := by
  intro run
  rcases hadd : Store.addToView view element (run.grid.boundsFor view request).1 run.store with
    ⟨result, store⟩
  rw [Step.place, Step.run_get_bind]
  simp only
  cases result with
  | error error =>
    rw [Step.run_bind_of_error (Step.run_call_of_error hadd .store)]
    exact (List.append_nil _).symm
  | ok visual =>
    rw [Step.run_bind_of_ok (Step.run_call_of_ok hadd .store)]
    rfl

theorem tellsTouched_applyAction (oracle : Oracle) (action : Action) :
    TellsTouched (applyAction oracle action : Step σ Done) := by
  by_cases h : action.op = .addToView
  · cases action with
    | addToView view element x y width height =>
      exact (PlacesNothing.resolveView view).bind_tellsTouched fun v =>
        (PlacesNothing.resolve element _).bind_tellsTouched fun e => tellsTouched_place v e _
    | _ => cases h
  · exact (PlacesNothing.applyAction oracle h).tellsTouched

/-- The views that a run touches are those that its verdicts tell of. -/
theorem touched_judge (actions : List Action) :
    (judge oracle stopOnError halted run actions).2.touched = run.touched ++
      (judge oracle stopOnError halted run actions).1.filterMap fun p => p.2.placedOn? := by
  induction actions generalizing halted run with
  | nil => exact (List.append_nil _).symm
  | cons action actions ih =>
    cases halted with
    | true =>
      rw [judge_halted, List.filterMap_eq_nil_iff.mpr, List.append_nil]
      intro p hp
      obtain ⟨_, -, rfl⟩ := List.mem_map.mp hp
      rfl
    | false =>
      have htells := tellsTouched_applyAction oracle action run
      rcases hrun : (applyAction oracle action).run run with ⟨made, run'⟩
      rw [hrun] at htells
      rw [judge_cons hrun, ih, htells, List.append_assoc, List.filterMap_cons]
      cases (applyVerdict made).placedOn? <;> rfl

end

end ArchChange.Execution
