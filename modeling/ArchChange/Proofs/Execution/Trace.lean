import ArchChange.Execution.Execute
/-!
A run as the verdicts on its actions and where it ends, apart from how outcomes are counted.
-/
namespace ArchChange.Execution

def Verdict.isApplied : Verdict → Bool
  | applied .. => true
  | _ => false

def Verdict.isSkipped : Verdict → Bool
  | skipped => true
  | _ => false

theorem not_isFailed_of_isApplied {v : Verdict} (h : v.isApplied) : ¬ v.isFailed := by
  cases v <;> simp_all [Verdict.isApplied, Verdict.isFailed]

theorem not_isSkipped_of_isApplied {v : Verdict} (h : v.isApplied) : ¬ v.isSkipped := by
  cases v <;> simp_all [Verdict.isApplied, Verdict.isSkipped]

section

variable {σ : Type} [Store σ]

/-- The verdicts on actions and the run after them. -/
def judge (oracle : Oracle) (stopOnError : Bool) (halted : Bool) (run : Run σ) :
    List Action → List (Action × Verdict) × Run σ
  | [] => ([], run)
  | action :: actions =>
    if halted then
      let (judged, run) := judge oracle stopOnError true run actions
      ((action, .skipped) :: judged, run)
    else
      let (made, run) := (applyAction oracle action).run run
      let verdict := applyVerdict made
      let (judged, run) := judge oracle stopOnError (verdict.isFailed && stopOnError) run actions
      ((action, verdict) :: judged, run)

/-- The outcomes that verdicts come to, numbered from `index` on. -/
def outcomesFrom (index : Nat) : List (Action × Verdict) → List Outcome
  | [] => []
  | (action, verdict) :: judged => ⟨index, action.op, verdict⟩ :: outcomesFrom (index + 1) judged

variable {oracle : Oracle} {stopOnError halted : Bool} {run : Run σ}

theorem judge_halted (actions : List Action) :
    judge oracle stopOnError true run actions =
      (actions.map fun action => (action, .skipped), run) := by
  induction actions with
  | nil => rfl
  | cons action actions ih => rw [judge, if_pos rfl, ih, List.map_cons]

theorem judge_cons {action : Action} {made : Except ActionError Done} {run' : Run σ}
    (h : (applyAction oracle action).run run = (made, run')) (actions : List Action) :
    judge oracle stopOnError false run (action :: actions) =
      ((action, applyVerdict made) :: (judge oracle stopOnError
        ((applyVerdict made).isFailed && stopOnError) run' actions).1,
      (judge oracle stopOnError ((applyVerdict made).isFailed && stopOnError) run' actions).2) := by
  rw [judge, if_neg (by simp), h]

/-- A run that does not stop on errors goes on whatever becomes of an action. -/
theorem judge_cons_false (action : Action) (actions : List Action) :
    judge oracle false false run (action :: actions) =
      ((action, applyVerdict ((applyAction oracle action).run run).1) ::
        (judge oracle false false ((applyAction oracle action).run run).2 actions).1,
      (judge oracle false false ((applyAction oracle action).run run).2 actions).2) := by
  rcases h : (applyAction oracle action).run run with ⟨made, run'⟩
  rw [judge_cons h, Bool.and_false]

/-- Each action gets a verdict. -/
theorem map_fst_judge (actions : List Action) :
    (judge oracle stopOnError halted run actions).1.map Prod.fst = actions := by
  induction actions generalizing halted run with
  | nil => rfl
  | cons action actions ih =>
    cases halted with
    | true => simp [judge_halted, Function.comp_def]
    | false =>
      rcases h : (applyAction oracle action).run run with ⟨made, run'⟩
      rw [judge_cons h]
      exact congrArg (action :: ·) ih

theorem length_outcomesFrom (index : Nat) (judged : List (Action × Verdict)) :
    (outcomesFrom index judged).length = judged.length := by
  induction judged generalizing index with
  | nil => rfl
  | cons p judged ih => exact congrArg (· + 1) (ih (index + 1))

theorem getElem?_outcomesFrom (index : Nat) (judged : List (Action × Verdict)) (k : Nat) :
    (outcomesFrom index judged)[k]? = judged[k]?.map fun p => ⟨index + k, p.1.op, p.2⟩ := by
  induction judged generalizing index k with
  | nil => rfl
  | cons p judged ih =>
    cases k with
    | zero => rfl
    | succ k =>
      have hnext := ih (index + 1) k
      rw [Nat.add_right_comm] at hnext
      exact hnext

/-- A run counts its verdicts one by one. -/
theorem applyAll_eq (index : Nat) (result : Result) (actions : List Action) :
    applyAll oracle stopOnError index halted run result actions =
      ((outcomesFrom index (judge oracle stopOnError halted run actions).1).foldl Result.record
        result, (judge oracle stopOnError halted run actions).2) := by
  induction actions generalizing index halted run result with
  | nil => rfl
  | cons action actions ih =>
    cases halted with
    | true =>
      rw [applyAll, if_pos rfl, ih, judge, if_pos rfl]
      rfl
    | false =>
      rcases h : (applyAction oracle action).run run with ⟨made, run'⟩
      rw [applyAll, if_neg (by simp), judge_cons h, h]
      exact ih _ _

end

section

variable (os : List Outcome) (result : Result)

theorem outcomes_foldl_record :
    (os.foldl Result.record result).outcomes = result.outcomes ++ os := by
  induction os generalizing result with
  | nil => simp
  | cons o os ih =>
    rw [List.foldl_cons, ih]
    simp [Result.record]
    cases o.verdict <;> rfl

theorem failed_foldl_record : (os.foldl Result.record result).failed =
    result.failed + os.countP fun o => o.verdict.isFailed := by
  induction os generalizing result with
  | nil => rfl
  | cons o os ih =>
    rw [List.foldl_cons, ih, List.countP_cons, Result.record]
    cases o.verdict <;> simp [Verdict.isFailed]
    omega

theorem skipped_foldl_record : (os.foldl Result.record result).skipped =
    result.skipped + os.countP fun o => o.verdict.isSkipped := by
  induction os generalizing result with
  | nil => rfl
  | cons o os ih =>
    rw [List.foldl_cons, ih, List.countP_cons, Result.record]
    cases o.verdict <;> simp [Verdict.isSkipped]
    omega

theorem ok_foldl_record (h : result.ok = (result.failed == 0)) :
    (os.foldl Result.record result).ok = ((os.foldl Result.record result).failed == 0) := by
  induction os generalizing result with
  | nil => exact h
  | cons o os ih => exact ih _ rfl

/-- Where all is applied nothing is counted as failed or skipped. -/
theorem counts_foldl_record (mode : Mode) {os : List Outcome}
    (h : ∀ o ∈ os, o.verdict.isApplied) :
    (os.foldl Result.record (.start mode)).ok = true ∧
    (os.foldl Result.record (.start mode)).failed = 0 ∧
    (os.foldl Result.record (.start mode)).skipped = 0 := by
  have hfailed : (os.foldl Result.record (.start mode)).failed = 0 := by
    rw [failed_foldl_record]
    simp only [Result.start, Nat.zero_add, List.countP_eq_zero]
    intro o ho
    exact not_isFailed_of_isApplied (h o ho)
  refine ⟨?_, hfailed, ?_⟩
  · rw [ok_foldl_record os _ rfl, hfailed]
    rfl
  · rw [skipped_foldl_record]
    simp only [Result.start, Nat.zero_add, List.countP_eq_zero]
    intro o ho
    exact not_isSkipped_of_isApplied (h o ho)

/-- Counting outcomes says nothing about connections. -/
theorem connections_foldl_record :
    (os.foldl Result.record result).autoConnected = result.autoConnected ∧
    (os.foldl Result.record result).connectFailures = result.connectFailures := by
  induction os generalizing result with
  | nil => exact ⟨rfl, rfl⟩
  | cons o os ih =>
    obtain ⟨hconnected, hfailures⟩ := ih (result.record o)
    rw [List.foldl_cons, hconnected, hfailures, Result.record]
    cases o.verdict <;> exact ⟨rfl, rfl⟩

end

section

variable {σ : Type} [Store σ]

/-- What a run that has made its actions comes to. -/
def conclude (options : Options) (result : Result) (run : Run σ) : Result × σ :=
  if options.autoConnect && !run.touched.isEmpty then finish result run else (result, run.store)

theorem applyPlan_eq {plan : ChangePlan} (h : plan.status = .ready) (oracle : Oracle)
    (options : Options) (store : σ) : applyPlan oracle options plan store =
      conclude options ((outcomesFrom 0 (judge oracle options.stopOnError false (.start store)
        plan.actions).1).foldl Result.record (.start .apply))
        (judge oracle options.stopOnError false (.start store) plan.actions).2 := by
  simp only [applyPlan, refuse?, h, applyAll_eq]
  rfl

theorem applyPlan_of_not_ready {plan : ChangePlan} (h : plan.status ≠ .ready) (oracle : Oracle)
    (options : Options) (store : σ) : (applyPlan oracle options plan store).2 = store := by
  unfold applyPlan refuse?
  cases hs : plan.status with
  | ready => exact absurd hs h
  | needsClarification => rfl
  | refusal => rfl

variable (options : Options) (result : Result) (run : Run σ)

/-- Drawing connections leaves what is said about the actions. -/
theorem conclude_actions : (conclude options result run).1.outcomes = result.outcomes ∧
    (conclude options result run).1.ok = result.ok ∧
    (conclude options result run).1.failed = result.failed ∧
    (conclude options result run).1.skipped = result.skipped := by
  unfold conclude
  split <;> exact ⟨rfl, rfl, rfl, rfl⟩

/-- A plan that is not ready fails without a single action. -/
theorem counts_applyPlan_of_not_ready {plan : ChangePlan} (h : plan.status ≠ .ready)
    (oracle : Oracle) (options : Options) (store : σ) :
    (applyPlan oracle options plan store).1.ok = false ∧
    (applyPlan oracle options plan store).1.applied = 0 := by
  unfold applyPlan refuse?
  cases hs : plan.status with
  | ready => exact absurd hs h
  | needsClarification => exact ⟨rfl, rfl⟩
  | refusal => exact ⟨rfl, rfl⟩

/-- A plan goes well when it is ready and none of its actions fails. -/
theorem ok_applyPlan_iff (oracle : Oracle) (options : Options) (plan : ChangePlan) (store : σ) :
    (applyPlan oracle options plan store).1.ok = true ↔
      plan.status = .ready ∧ (applyPlan oracle options plan store).1.failed = 0 := by
  by_cases hready : plan.status = .ready
  · obtain ⟨-, hok, hfailed, -⟩ := conclude_actions options
      ((outcomesFrom 0 (judge oracle options.stopOnError false (.start store)
        plan.actions).1).foldl Result.record (.start .apply))
      (judge oracle options.stopOnError false (.start store) plan.actions).2
    rw [applyPlan_eq hready, hok, hfailed, ok_foldl_record _ _ rfl, beq_iff_eq]
    exact (and_iff_right hready).symm
  · rw [(counts_applyPlan_of_not_ready hready oracle options store).1]
    exact iff_of_false Bool.false_ne_true fun h => hready h.1

/-- The outcomes of a plan tell of the verdicts. -/
theorem outcomes_applyPlan {plan : ChangePlan} (h : plan.status = .ready) (oracle : Oracle)
    (options : Options) (store : σ) : (applyPlan oracle options plan store).1.outcomes =
      outcomesFrom 0 (judge oracle options.stopOnError false (.start store) plan.actions).1 := by
  rw [applyPlan_eq h, (conclude_actions ..).1, outcomes_foldl_record]
  rfl

/-- The connections drawn depend on the run alone. -/
theorem conclude_connections (result' : Result)
    (hconnected : result.autoConnected = result'.autoConnected)
    (hfailures : result.connectFailures = result'.connectFailures) :
    (conclude options result run).2 = (conclude options result' run).2 ∧
    (conclude options result run).1.autoConnected =
      (conclude options result' run).1.autoConnected ∧
    (conclude options result run).1.connectFailures =
      (conclude options result' run).1.connectFailures := by
  unfold conclude
  split
  · exact ⟨rfl, rfl, rfl⟩
  · exact ⟨rfl, hconnected, hfailures⟩

end

end ArchChange.Execution
