import ArchChange.Execution.Apply
import ArchChange.Execution.Connect
import ArchChange.Execution.Preview
/-!
Running a plan. Only a plan that is ready is run; after its actions, relationships are drawn on
the views that they placed something on.
-/
namespace ArchChange.Execution

structure Options where
  mode : Mode
  /-- Skip every action after the first failure. -/
  stopOnError : Bool
  /-- Draw relationships after the actions. -/
  autoConnect : Bool
deriving DecidableEq, Repr

/-- The result of a plan that is not ready. -/
def refuse? (plan : ChangePlan) (mode : Mode) : Option Result :=
  match plan.status with
  | .ready => none
  | .needsClarification => some { Result.start mode with
      ok := false
      message := some "plan needs clarification before it can run"
      questions := plan.questions }
  | .refusal => some { Result.start mode with ok := false, message := some plan.summary }

/-- Describes the actions of a plan. -/
def preview {σ : Type} [EntityLookup σ] (oracle : Oracle) (plan : ChangePlan) (store : σ) :
    Result :=
  match refuse? plan .preview with
  | some result => result
  | none => announceAll oracle store 0 .empty (.start .preview) plan.actions

/-- Draws relationships on the views that a run has touched. -/
def finish {σ : Type} [Store σ] (result : Result) (run : Run σ) : Result × σ :=
  let (report, store) := autoConnect run.touched run.store
  ({ result with autoConnected := report.added, connectFailures := report.failures }, store)

/-- Makes the actions of a plan. -/
def applyPlan {σ : Type} [Store σ] (oracle : Oracle) (options : Options) (plan : ChangePlan)
    (store : σ) : Result × σ :=
  match refuse? plan .apply with
  | some result => (result, store)
  | none =>
    let (result, run) :=
      applyAll oracle options.stopOnError 0 false (.start store) (.start .apply) plan.actions
    if options.autoConnect && !run.touched.isEmpty then finish result run
    else (result, run.store)

/-- Runs a plan in the mode that the options say. -/
def execute {σ : Type} [Store σ] (oracle : Oracle) (options : Options) (plan : ChangePlan)
    (store : σ) : Result × σ :=
  match options.mode with
  | .preview => (preview oracle plan store, store)
  | .apply => applyPlan oracle options plan store

end ArchChange.Execution
