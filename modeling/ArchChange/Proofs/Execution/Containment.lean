import ArchChange.Proofs.Execution.Preservation
/-!
Failures are contained. An action that fails leaves the whole run as it is, so a plan comes to
the same as the actions of it that were applied, run alone.
-/
namespace ArchChange

namespace Execution

variable {oracle : Oracle} {run : Run Model}

/-- The actions that were applied, with their verdicts. -/
def applied (judged : List (Action × Verdict)) : List (Action × Verdict) :=
  judged.filter fun p => p.2.isApplied

theorem applied_halted (actions : List Action) :
    applied (actions.map fun action => (action, .skipped)) = [] := by
  rw [applied, List.filter_eq_nil_iff]
  intro p hp
  obtain ⟨action, -, rfl⟩ := List.mem_map.mp hp
  simp [Verdict.isApplied]

/-- The applied actions alone are all applied again, with the same verdicts, and end where all
actions together have ended. -/
theorem judge_applied (oracle : Oracle) (hm : run.store.WellFormed) (stopOnError halted : Bool)
    (actions : List Action) :
    judge oracle stopOnError false run
      ((applied (judge oracle stopOnError halted run actions).1).map Prod.fst) =
      (applied (judge oracle stopOnError halted run actions).1,
        (judge oracle stopOnError halted run actions).2) := by
  induction actions generalizing halted run with
  | nil => rfl
  | cons action actions ih =>
    cases halted with
    | true =>
      rw [judge_halted, applied_halted]
      rfl
    | false =>
      rcases accounts_applyAction hm action with ⟨-, done, run', hrun, -⟩ | ⟨-, error, hrun⟩
      · have hm' : run'.store.WellFormed := by
          have hafter := wellFormed_applyAction oracle hm action
          rwa [hrun] at hafter
        have hnext := ih hm' ((applyVerdict (.ok done)).isFailed && stopOnError)
        rw [judge_cons hrun]
        simp only [applied, List.filter_cons, applyVerdict, Verdict.isApplied, if_true,
          List.map_cons] at hnext ⊢
        rw [judge_cons hrun]
        simp only [applyVerdict, Verdict.isFailed, Bool.false_and] at hnext ⊢
        rw [hnext]
      · -- the failed action has left the run as it was
        have hnext := ih hm ((applyVerdict (.error error)).isFailed && stopOnError)
        rw [judge_cons hrun]
        exact hnext

section

variable (index : Nat) (judged : List (Action × Verdict))

/-- What an outcome says apart from its number. -/
def Outcome.said (o : Outcome) : OpKind × Verdict :=
  (o.op, o.verdict)

theorem said_outcomesFrom : (outcomesFrom index judged).map Outcome.said =
    judged.map fun p => (p.1.op, p.2) := by
  induction judged generalizing index with
  | nil => rfl
  | cons p judged ih => exact congrArg ((p.1.op, p.2) :: ·) (ih (index + 1))

theorem said_applied_outcomesFrom :
    ((outcomesFrom index judged).filter fun o => o.verdict.isApplied).map Outcome.said =
      (applied judged).map fun p => (p.1.op, p.2) := by
  have hmap := congrArg (List.filter fun s => s.2.isApplied) (said_outcomesFrom index judged)
  rwa [List.filter_map, List.filter_map] at hmap

theorem zip_outcomesFrom :
    (((judged.map Prod.fst).zip (outcomesFrom index judged)).filter
      fun p => p.2.verdict.isApplied).map Prod.fst = (applied judged).map Prod.fst := by
  induction judged generalizing index with
  | nil => rfl
  | cons p judged ih =>
    have hnext := ih (index + 1)
    simp only [applied] at hnext
    simp only [outcomesFrom, List.map_cons, List.zip_cons_cons, List.filter_cons, applied]
    split
    · rw [List.map_cons, List.map_cons, hnext]
    · exact hnext

theorem isApplied_of_mem {o : Outcome} (h : o ∈ outcomesFrom index (applied judged)) :
    o.verdict.isApplied := by
  have hsaid := List.mem_map_of_mem (f := Outcome.said) h
  rw [said_outcomesFrom] at hsaid
  obtain ⟨p, hp, heq⟩ := List.mem_map.mp hsaid
  rw [← show p.2 = o.verdict from congrArg Prod.snd heq]
  exact (List.mem_filter.mp hp).2

end

/-- The plan with the actions alone that were applied. -/
def appliedPlan (plan : ChangePlan) (result : Result) : ChangePlan :=
  { plan with
    actions := ((plan.actions.zip result.outcomes).filter
      fun p => p.2.verdict.isApplied).map Prod.fst }

theorem actions_appliedPlan (oracle : Oracle) (options : Options) {plan : ChangePlan}
    (h : plan.status = .ready) (m : Model) :
    (appliedPlan plan (applyPlan oracle options plan m).1).actions = (applied
      (judge oracle options.stopOnError false (.start m) plan.actions).1).map Prod.fst := by
  have hactions : (judge oracle options.stopOnError false (.start m) plan.actions).1.map Prod.fst =
      plan.actions := map_fst_judge plan.actions
  rw [← zip_outcomesFrom 0, ← outcomes_applyPlan h, hactions]
  rfl

/-- Run alone, the applied actions end where the plan has ended. -/
theorem judge_appliedPlan (oracle : Oracle) (options : Options) {plan : ChangePlan}
    (h : plan.status = .ready) {m : Model} (hm : m.WellFormed) :
    judge oracle options.stopOnError false (.start m)
      (appliedPlan plan (applyPlan oracle options plan m).1).actions =
      (applied (judge oracle options.stopOnError false (.start m) plan.actions).1,
        (judge oracle options.stopOnError false (.start m) plan.actions).2) := by
  have hstart : (Run.start m).store.WellFormed := hm
  rw [actions_appliedPlan oracle options h]
  exact judge_applied oracle hstart options.stopOnError false plan.actions

/-- A failed or skipped action leaves no trace: the applied actions of a plan, run alone on the
same model with the same options, are all applied and come to the same. -/
theorem applyPlan_appliedPlan (oracle : Oracle) (options : Options) (plan : ChangePlan)
    (m : Model) (hready : plan.status = .ready) (hm : m.WellFormed) :
    let first := applyPlan oracle options plan m
    let alone := appliedPlan plan first.1
    let second := applyPlan oracle options alone m
    second.2 = first.2 ∧
    second.1.outcomes.length = alone.actions.length ∧
    (∀ o ∈ second.1.outcomes, o.verdict.isApplied) ∧
    second.1.ok = true ∧ second.1.failed = 0 ∧ second.1.skipped = 0 ∧
    second.1.outcomes.map Outcome.said =
      (first.1.outcomes.filter fun o => o.verdict.isApplied).map Outcome.said ∧
    second.1.autoConnected = first.1.autoConnected ∧
    second.1.connectFailures = first.1.connectFailures ∧
    second.1.connectError? = first.1.connectError? := by
  intro first alone second
  rcases hjudge : judge oracle options.stopOnError false (.start m) plan.actions with ⟨judged, run⟩
  have hready' : alone.status = .ready := hready
  have halone : alone.actions = (applied judged).map Prod.fst := by
    have heq := actions_appliedPlan oracle options hready m
    rwa [hjudge] at heq
  have hagain : judge oracle options.stopOnError false (.start m) alone.actions =
      (applied judged, run) := by
    have heq := judge_appliedPlan oracle options hready hm
    rwa [hjudge] at heq
  have hfirst : first = conclude options
      ((outcomesFrom 0 judged).foldl Result.record (.start .apply)) run := by
    have heq := applyPlan_eq hready oracle options m
    rwa [hjudge] at heq
  have hsecond : second = conclude options
      ((outcomesFrom 0 (applied judged)).foldl Result.record (.start .apply)) run := by
    have heq := applyPlan_eq hready' oracle options m
    rwa [hagain] at heq
  have houtcomes : first.1.outcomes = outcomesFrom 0 judged := by
    have heq := outcomes_applyPlan hready oracle options m
    rwa [hjudge] at heq
  have houtcomes' : second.1.outcomes = outcomesFrom 0 (applied judged) := by
    have heq := outcomes_applyPlan hready' oracle options m
    rwa [hagain] at heq
  have happlied : ∀ o ∈ outcomesFrom 0 (applied judged), o.verdict.isApplied := by
    intro o ho
    exact isApplied_of_mem 0 judged ho
  obtain ⟨-, hok, hfailed, hskipped⟩ := conclude_actions options
    ((outcomesFrom 0 (applied judged)).foldl Result.record (.start .apply)) run
  obtain ⟨hok', hfailed', hskipped'⟩ := counts_foldl_record .apply happlied
  obtain ⟨hstore, hconnected, hfailures⟩ := conclude_connections options
    ((outcomesFrom 0 (applied judged)).foldl Result.record (.start .apply)) run
    ((outcomesFrom 0 judged).foldl Result.record (.start .apply))
    (by rw [(connections_foldl_record ..).1, (connections_foldl_record ..).1])
    (by rw [(connections_foldl_record ..).2, (connections_foldl_record ..).2])
  rw [← hsecond] at hok hfailed hskipped
  rw [← hsecond, ← hfirst] at hstore hconnected hfailures
  refine ⟨hstore, ?_, ?_, hok.trans hok', hfailed.trans hfailed', hskipped.trans hskipped', ?_,
    hconnected, hfailures, ?_⟩
  · rw [houtcomes', length_outcomesFrom, halone, List.length_map]
  · rw [houtcomes']
    exact happlied
  · rw [houtcomes', said_outcomesFrom, houtcomes, said_applied_outcomesFrom]
  · rw [Result.connectError?, hfailures, Result.connectError?]

/-- A plan with two actions that fail, and what its others come to. -/
theorem applyPlan_appliedPlan_sample :
    let oracle : Oracle := ⟨fun _ _ _ => true, fun _ => some .businessActor, fun _ => none⟩
    let m := Model.new "Office"
    let plan : ChangePlan := ⟨.v1, .ready, "", [], [
      .createElement "BusinessActor" "Clerk" (some "clerk") none,
      .renameElement "nobody" "Somebody",
      .createView "Desk" (some "desk"),
      .addToView "clerk" "desk" none none none none,
      .addToView "desk" "clerk" none none none none]⟩
    let first := applyPlan oracle ⟨.apply, false, true⟩ plan m
    let second := applyPlan oracle ⟨.apply, false, true⟩ (appliedPlan plan first.1) m
    first.1.failed = 2 ∧ m.WellFormed ∧ second.2 = first.2 := by
  intro oracle m plan first second
  have hfailed : first.1.failed = 2 := by decide +kernel
  have hm : m.WellFormed := (Model.new_wellFiled "Office").toWellFormed
  have h := applyPlan_appliedPlan oracle ⟨.apply, false, true⟩ plan m rfl hm
  exact ⟨hfailed, hm, h.1⟩

end Execution

end ArchChange
