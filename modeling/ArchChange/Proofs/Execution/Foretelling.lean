import ArchChange.Proofs.Execution.History
import Mathlib.Data.List.Induction
/-!
A preview as the verdicts that it foretells. An action is described in view of the references
that the actions before it declare and of the places that they take, while the model stays as it
is.
-/
namespace ArchChange.Execution

open Validation

section

variable {σ : Type} [EntityLookup σ] (oracle : Oracle) (store : σ)

/-- The verdicts that a preview foretells. -/
def foretell (s : PreviewState) : List Action → List (Action × Verdict)
  | [] => []
  | action :: actions =>
    let (said, s) := announce oracle store action s
    (action, previewVerdict said) :: foretell s actions

/-- The state of a preview that has described some actions. -/
def foretold (actions : List Action) : PreviewState :=
  actions.foldl (fun s action => (announce oracle store action s).2) .empty

/-- A preview counts its verdicts one by one. -/
theorem announceAll_eq (index : Nat) (s : PreviewState) (result : Result)
    (actions : List Action) : announceAll oracle store index s result actions =
      (outcomesFrom index (foretell oracle store s actions)).foldl Result.record result := by
  induction actions generalizing index s result with
  | nil => rfl
  | cons action actions ih => exact ih _ _ _

theorem outcomes_preview {plan : ChangePlan} (h : plan.status = .ready) :
    (preview oracle plan store).outcomes =
      outcomesFrom 0 (foretell oracle store .empty plan.actions) := by
  have hrun : preview oracle plan store =
      announceAll oracle store 0 .empty (.start .preview) plan.actions := by
    simp [preview, refuse?, h]
  rw [hrun, announceAll_eq, outcomes_foldl_record]
  rfl

theorem getElem?_foretell (s : PreviewState) {actions : List Action} {k : Nat}
    (hk : k < actions.length) : (foretell oracle store s actions)[k]? =
      some (actions[k], previewVerdict (announce oracle store actions[k]
        ((actions.take k).foldl (fun s action => (announce oracle store action s).2) s)).1) := by
  induction actions generalizing s k with
  | nil => cases hk
  | cons action actions ih =>
    cases k with
    | zero => rfl
    | succ k => exact ih _ (Nat.lt_of_succ_lt_succ hk)

/-- What is said of an action is said in the state that the actions before it have left. -/
theorem getElem?_outcomes_preview {plan : ChangePlan} (h : plan.status = .ready) {k : Nat}
    (hk : k < plan.actions.length) : (preview oracle plan store).outcomes[k]? =
      some ⟨k, plan.actions[k].op, previewVerdict (announce oracle store plan.actions[k]
        (foretold oracle store (plan.actions.take k))).1⟩ := by
  rw [outcomes_preview oracle store h, getElem?_outcomesFrom,
    getElem?_foretell oracle store .empty hk, Nat.zero_add]
  rfl

theorem foretold_append (actions : List Action) (action : Action) :
    foretold oracle store (actions ++ [action]) =
      (announce oracle store action (foretold oracle store actions)).2 := by
  simp [foretold]

/-- Where the types are known, a preview has noted the references to new elements. -/
theorem lookup_elementRefs_foretold {actions : List Action}
    (h : ∀ action ∈ actions, LabelKnown oracle action) (ref : String) :
    ((foretold oracle store actions).elementRefs.lookup ref).isSome ↔
      ref ∈ elementRefs actions := by
  induction actions using List.reverseRecOn with
  | nil => simp [foretold, PreviewState.empty, elementRefs]
  | append_singleton actions action ih =>
    have hbefore := ih fun a ha => h a (List.mem_append_left _ ha)
    have hlabel := h action (by simp)
    rw [foretold_append, mem_elementRefs_append, ← hbefore]
    cases action with
    | createElement label name declared text =>
      obtain ⟨type, htype⟩ := Option.isSome_iff_exists.mp hlabel
      cases declared with
      | none => simp [announce, htype, PreviewState.declareElement, Action.elementRef?]
      | some r =>
        simp only [announce, htype, PreviewState.declareElement, Action.elementRef?,
          List.lookup_cons]
        by_cases hr : ref = r
        · simp [hr]
        · have hne : (ref == r) = false := by simpa using hr
          simp [hne, Ne.symm hr]
    | createView name declared => cases declared <;> simp [announce, PreviewState.declareView,
        Action.elementRef?]
    | createRelationship label source target name =>
      obtain ⟨type, htype⟩ := Option.isSome_iff_exists.mp hlabel
      simp [announce, htype, Action.elementRef?]
    | _ => simp [announce, Action.elementRef?]

end

end ArchChange.Execution
