import ArchChange.Proofs.Execution.Action
import ArchChange.Proofs.Execution.Operations
/-!
Well-formed and well-filed models stay so: under every operation, and so under every plan, whether
its actions succeed or fail and whether it was validated or not, for a run changes its store by
operations alone.
-/
namespace ArchChange.Execution

variable {run : Run Model}

theorem wellFormed_applyAction (oracle : Oracle) (hm : run.store.WellFormed) (action : Action) :
    ((applyAction oracle action).run run).2.store.WellFormed :=
  (Performs.applyAction oracle run action).wellFormed hm

theorem wellFiled_applyPlan {m : Model} (hm : m.WellFiled) (oracle : Oracle) (options : Options)
    (plan : ChangePlan) : (applyPlan oracle options plan m).2.WellFiled := by
  by_cases hready : plan.status = .ready
  · rw [applyPlan_eq hready]
    exact (operatesTo_conclude options _ _).wellFiled
      ((operatesTo_judge (.start m) options.stopOnError false plan.actions).wellFiled hm)
  · rwa [applyPlan_of_not_ready hready]

/-- New models are well formed and well filed, and neither an operation nor the execution of a
plan, with any options, takes such a model to one that is not. -/
theorem wellFiled_invariant :
    (∀ name, (Model.new name).WellFiled) ∧
    (∀ (operation : Model.Operation) (m : Model), m.WellFiled → (operation.run m).WellFiled) ∧
    ∀ (oracle : Oracle) (options : Options) (plan : ChangePlan) (m : Model), m.WellFiled →
      (execute oracle options plan m).2.WellFiled := by
  refine ⟨Model.new_wellFiled, ?_, ?_⟩
  · intro operation m hm
    exact hm.run operation
  · intro oracle options plan m hm
    unfold execute
    cases options.mode with
    | preview => exact hm
    | apply => exact wellFiled_applyPlan hm oracle options plan

/-- A plan that creates, draws and deletes, run on a model to which a folder was added. -/
theorem wellFiled_invariant_sample :
    (execute .bundled ⟨.apply, false, true⟩
      ⟨.v1, .ready, "", [], [
        .createElement "BusinessActor" "Clerk" (some "clerk") none,
        .createView "Desk" (some "desk"),
        .addToView "desk" "clerk" none none none none,
        .renameElement "nobody" "Somebody",
        .deleteElement "clerk"]⟩
      ((Model.Operation.addFolder "folder-other" "Archive").run (.new "Office"))).2.WellFiled :=
  wellFiled_invariant.2.2 _ _ _ _
    (wellFiled_invariant.2.1 _ _ (wellFiled_invariant.1 "Office"))

end ArchChange.Execution
