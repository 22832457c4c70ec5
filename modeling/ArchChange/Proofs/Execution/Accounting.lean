import ArchChange.Proofs.Execution.Places
import ArchChange.Proofs.Execution.Wiring
/-!
What the result of a plan accounts for, whatever calls of the store are refused: each action once,
and each connection that was drawn after the actions.
-/
namespace ArchChange.Execution

open FaultyModel (Refused)
open Model (Draws)

/-! The actions. -/

section

variable {σ : Type} [Store σ] {oracle : Oracle} {stopOnError halted : Bool} {run : Run σ}

/-- The result counts an outcome for each action; with `stopOnError` the actions after a failure are
skipped, and no others. -/
structure AccountsForActions (stopOnError : Bool) (actions : List Action) (r : Result) : Prop where
  indices : r.outcomes.map Outcome.index = List.range actions.length
  ops : r.outcomes.map Outcome.op = actions.map Action.op
  applied : r.applied = r.outcomes.countP fun o => o.verdict.isApplied
  failed : r.failed = r.outcomes.countP fun o => o.verdict.isFailed
  skipped : r.skipped = r.outcomes.countP fun o => o.verdict.isSkipped
  total : r.applied + r.failed + r.skipped = actions.length
  ok_iff : r.ok = true ↔ r.failed = 0
  skipped_iff : ∀ (k : Nat) (o : Outcome), r.outcomes[k]? = some o →
    (o.verdict.isSkipped ↔ stopOnError = true ∧ ∃ p ∈ r.outcomes.take k, p.verdict.isFailed)
  failed_le_one : stopOnError = true → r.failed ≤ 1

theorem applied_foldl_record (os : List Outcome) (result : Result) :
    (os.foldl Result.record result).applied =
      result.applied + os.countP fun o => o.verdict.isApplied := by
  induction os generalizing result with
  | nil => rfl
  | cons o os ih =>
    rw [List.foldl_cons, ih, List.countP_cons, Result.record]
    cases o.verdict <;> simp [Verdict.isApplied]
    omega

theorem countP_verdicts (os : List Outcome) : (os.countP fun o => o.verdict.isApplied) +
    (os.countP fun o => o.verdict.isFailed) + (os.countP fun o => o.verdict.isSkipped) =
      os.length := by
  induction os with
  | nil => rfl
  | cons o os ih =>
    simp only [List.countP_cons, List.length_cons, ← ih]
    cases o.verdict <;> simp [Verdict.isApplied, Verdict.isFailed, Verdict.isSkipped] <;> omega

theorem map_index_outcomesFrom (index : Nat) (judged : List (Action × Verdict)) :
    (outcomesFrom index judged).map Outcome.index = List.range' index judged.length := by
  induction judged generalizing index with
  | nil => rfl
  | cons p judged ih => exact congrArg (index :: ·) (ih (index + 1))

theorem map_op_outcomesFrom (index : Nat) (judged : List (Action × Verdict)) :
    (outcomesFrom index judged).map Outcome.op = (judged.map Prod.fst).map Action.op := by
  induction judged generalizing index with
  | nil => rfl
  | cons p judged ih => exact congrArg (p.1.op :: ·) (ih (index + 1))

theorem map_verdict_outcomesFrom (index : Nat) (judged : List (Action × Verdict)) :
    (outcomesFrom index judged).map Outcome.verdict = judged.map Prod.snd := by
  induction judged generalizing index with
  | nil => rfl
  | cons p judged ih => exact congrArg (p.2 :: ·) (ih (index + 1))

theorem not_isSkipped_applyVerdict (made : Except ActionError Done) :
    (applyVerdict made).isSkipped = false := by
  cases made <;> rfl

/-- An action is skipped when the run is halted from the start, or by a failure before it. -/
theorem isSkipped_judge_iff (actions : List Action) {k : Nat} {v : Verdict}
    (hv : ((judge oracle stopOnError halted run actions).1.map Prod.snd)[k]? = some v) :
    v.isSkipped ↔ halted = true ∨ stopOnError = true ∧
      ∃ u ∈ ((judge oracle stopOnError halted run actions).1.map Prod.snd).take k, u.isFailed := by
  induction actions generalizing halted run k with
  | nil => cases hv
  | cons action actions ih =>
    cases halted with
    | true =>
      rw [judge_halted, List.map_map, List.getElem?_map] at hv
      obtain ⟨_, -, rfl⟩ := Option.map_eq_some_iff.mp hv
      exact iff_of_true rfl (Or.inl rfl)
    | false =>
      rcases hrun : (applyAction oracle action).run run with ⟨made, run'⟩
      rw [judge_cons hrun, List.map_cons] at hv ⊢
      -- the first action is not skipped; for those after it, it may be the failure that halts
      cases k with
      | zero =>
        cases hv
        simp [not_isSkipped_applyVerdict]
      | succ k =>
        rw [ih hv, List.take_succ_cons, List.exists_mem_cons_iff, Bool.and_comm, Bool.and_eq_true,
          ← and_or_left, or_iff_right Bool.false_ne_true]

theorem failed_judge_halted (actions : List Action) :
    ((judge oracle stopOnError true run actions).1.countP fun p => p.2.isFailed) = 0 := by
  rw [judge_halted, List.countP_eq_zero]
  rintro p hp
  obtain ⟨_, -, rfl⟩ := List.mem_map.mp hp
  exact Bool.false_ne_true

/-- With `stopOnError` one action fails at most. -/
theorem failed_judge_le_one (actions : List Action) :
    ((judge oracle true halted run actions).1.countP fun p => p.2.isFailed) ≤ 1 := by
  induction actions generalizing halted run with
  | nil => exact Nat.zero_le 1
  | cons action actions ih =>
    cases halted with
    | true =>
      rw [failed_judge_halted]
      exact Nat.zero_le 1
    | false =>
      rcases hrun : (applyAction oracle action).run run with ⟨made, run'⟩
      rw [judge_cons hrun, List.countP_cons]
      cases made with
      | error error => exact Nat.add_le_add_right (Nat.le_of_eq (failed_judge_halted actions)) 1
      | ok done => exact ih

theorem conclude_applied (options : Options) (result : Result) (run : Run σ) :
    (conclude options result run).1.applied = result.applied := by
  unfold conclude
  split <;> rfl

theorem accountsForActions_applyPlan {plan : ChangePlan} (hready : plan.status = .ready)
    (oracle : Oracle) (options : Options) (store : σ) :
    AccountsForActions options.stopOnError plan.actions
      (applyPlan oracle options plan store).1 := by
  have houtcomes := outcomes_applyPlan hready oracle options store
  have hverdicts := congrArg (List.map Outcome.verdict) houtcomes
  rw [map_verdict_outcomesFrom] at hverdicts
  have hcount : ∀ p : Verdict → Bool,
      ((applyPlan oracle options plan store).1.outcomes.countP fun o => p o.verdict) =
        (judge oracle options.stopOnError false (.start store) plan.actions).1.countP
          fun q => p q.2 := by
    intro p
    have hmapped := congrArg (List.countP p) hverdicts
    rwa [List.countP_map, List.countP_map] at hmapped
  have hlength : (applyPlan oracle options plan store).1.outcomes.length =
      plan.actions.length := by
    rw [houtcomes, length_outcomesFrom, ← List.length_map Prod.fst, map_fst_judge]
  have happlied : (applyPlan oracle options plan store).1.applied =
      (applyPlan oracle options plan store).1.outcomes.countP fun o => o.verdict.isApplied := by
    rw [houtcomes, applyPlan_eq hready, conclude_applied, applied_foldl_record]
    exact Nat.zero_add _
  have hfailed : (applyPlan oracle options plan store).1.failed =
      (applyPlan oracle options plan store).1.outcomes.countP fun o => o.verdict.isFailed := by
    rw [houtcomes, applyPlan_eq hready, (conclude_actions ..).2.2.1, failed_foldl_record]
    exact Nat.zero_add _
  have hskipped : (applyPlan oracle options plan store).1.skipped =
      (applyPlan oracle options plan store).1.outcomes.countP fun o => o.verdict.isSkipped := by
    rw [houtcomes, applyPlan_eq hready, (conclude_actions ..).2.2.2, skipped_foldl_record]
    exact Nat.zero_add _
  constructor
  case indices =>
    rw [houtcomes, map_index_outcomesFrom, ← List.length_map Prod.fst, map_fst_judge,
      List.range_eq_range']
  case ops => rw [houtcomes, map_op_outcomesFrom, map_fst_judge]
  case applied => exact happlied
  case failed => exact hfailed
  case skipped => exact hskipped
  case total => rw [happlied, hfailed, hskipped, countP_verdicts, hlength]
  case ok_iff => rw [ok_applyPlan_iff, and_iff_right hready]
  case skipped_iff =>
    intro k o ho
    have hverdict : ((judge oracle options.stopOnError false (.start store)
        plan.actions).1.map Prod.snd)[k]? = some o.verdict := by
      rw [← hverdicts, List.getElem?_map, ho, Option.map_some]
    rw [isSkipped_judge_iff plan.actions hverdict, or_iff_right Bool.false_ne_true, ← hverdicts,
      ← List.map_take]
    simp only [List.mem_map, exists_exists_and_eq_and]
  case failed_le_one =>
    intro hstop
    rw [hfailed, hcount, hstop]
    exact failed_judge_le_one plan.actions

end

/-! The connections. -/

/-- The views that something was placed on. -/
def Result.touched (r : Result) : List String :=
  r.outcomes.filterMap fun o => o.verdict.placedOn?

/-- The views whose connections could not all be drawn. -/
def Result.failedViews (r : Result) : List String :=
  r.connectFailures.map ConnectFailure.view

/-- The result counts the connections drawn between two states. The touched views had their turns
in the order of their ids; one that did not fail got all that it lacked, one that failed what
came before the refusal. -/
structure AccountsForConnections (autoConnect : Bool) (r : Result) (before after : FaultyModel) :
    Prop where
  total : (after.model.views.flatMap View.connections).length =
    (before.model.views.flatMap View.connections).length + r.autoConnected
  drawn : ∃ ds, Draws before.model ds after.model ∧ ds.length = r.autoConnected ∧
    (∀ d ∈ ds, d.1 ∈ r.touched) ∧ (autoConnect = true → ∀ view ∈ r.touched, ∀ v,
      before.model.view? view = some v → JoinsFront v (undrawn before.model.relationships v)
        (view ∈ r.failedViews) (drawnOn view ds))
  turns : autoConnect = true → Turns (fun view => view ∉ before.model.viewIds)
    (fun view => view ∈ r.failedViews) (idSet r.touched) before after
  failed : r.failedViews.Sublist (idSet r.touched)
  error_iff : r.connectError?.isSome ↔ autoConnect = true ∧
    (Refused before after ∨ ∃ view ∈ r.touched, view ∉ before.model.viewIds)
  off : autoConnect = false → after = before

theorem connectError?_isSome_iff (failures : List ConnectFailure) :
    (connectError? failures).isSome ↔ failures ≠ [] := by
  cases failures <;> simp [connectError?]

section

variable {σ : Type} [Store σ] {options : Options} {result : Result}

theorem conclude_off (h : options.autoConnect = false) (result : Result) (run : Run σ) :
    conclude options result run = (result, run.store) := by
  simp [conclude, h]

/-- Where nothing was touched, drawing on what was touched does nothing. -/
theorem conclude_on (h : options.autoConnect = true) (hconnected : result.autoConnected = 0)
    (hfailures : result.connectFailures = []) (run : Run σ) :
    conclude options result run = finish result run := by
  cases htouched : run.touched with
  | nil =>
    have hresult : { result with autoConnected := 0, connectFailures := [] } = result := by
      rw [← hconnected, ← hfailures]
    rw [conclude, if_neg (by simp [htouched]), finish, htouched]
    exact Prod.ext hresult.symm rfl
  | cons view views => simp [conclude, h, htouched]

/-- The views that a run has touched are those that its outcomes tell of. -/
theorem touched_foldl_record (oracle : Oracle) (stopOnError : Bool) (store : σ)
    (actions : List Action) :
    ((outcomesFrom 0 (judge oracle stopOnError false (.start store) actions).1).foldl
      Result.record (.start .apply)).touched =
        (judge oracle stopOnError false (.start store) actions).2.touched := by
  have hverdicts := congrArg (List.filterMap Verdict.placedOn?)
    (map_verdict_outcomesFrom 0 (judge oracle stopOnError false (.start store) actions).1)
  rw [List.filterMap_map, List.filterMap_map] at hverdicts
  rw [touched_judge, Result.touched, outcomes_foldl_record]
  exact hverdicts

end

theorem accountsForConnections_conclude (options : Options) {result : Result}
    {run : Run FaultyModel} (htouched : result.touched = run.touched)
    (hconnected : result.autoConnected = 0) (hfailures : result.connectFailures = []) :
    AccountsForConnections options.autoConnect (conclude options result run).1 run.store
      (conclude options result run).2 := by
  cases hauto : options.autoConnect with
  | false =>
    rw [conclude_off hauto]
    constructor
    case total => rw [hconnected, Nat.add_zero]
    case drawn => exact ⟨[], .refl, hconnected.symm, by simp, by simp⟩
    case turns => simp
    case failed => simp [Result.failedViews, hfailures]
    case error_iff => simp [Result.connectError?, hfailures, connectError?]
    case off => exact fun _ => rfl
  | true =>
    obtain ⟨ds, failures, s', hrun, h⟩ := pass_autoConnect run.touched run.store
    have hdone : conclude options result run =
        ({ result with autoConnected := ds.length, connectFailures := failures }, s') := by
      rw [conclude_on hauto hconnected hfailures, finish, hrun]
    have htouched' : Result.touched
        { result with autoConnected := ds.length, connectFailures := failures } = run.touched :=
      htouched
    rw [hdone]
    constructor
    case total =>
      simp only [h.draws.connections.length_eq, List.length_append, List.length_map]
      exact Nat.add_comm _ _
    case drawn =>
      rw [htouched']
      exact ⟨ds, h.draws, rfl, fun d hd => mem_idSet.mp (h.on_views d hd),
        fun _ view hview v hv => h.joins view (mem_idSet.mpr hview) v hv⟩
    case turns =>
      rw [htouched']
      exact fun _ => h.turns
    case failed =>
      rw [htouched']
      exact h.failed
    case error_iff =>
      rw [Result.connectError?, connectError?_isSome_iff, h.failures_ne_nil_iff, htouched']
      simp only [mem_idSet, true_and]
    case off => simp

/-- Drawing connections leaves all else that a result says. -/
theorem conclude_rest {σ : Type} [Store σ] (options : Options) (result : Result) (run : Run σ) :
    { (conclude options result run).1 with
      autoConnected := result.autoConnected
      connectFailures := result.connectFailures } = result := by
  unfold conclude
  split <;> rfl

/-- Whatever calls of the store are refused, the result of a plan that is ready accounts for its
actions and, against the same plan run without drawing, for the connections drawn after them; on
the actions it says the same as without. -/
theorem applyPlan_accounts {plan : ChangePlan} (hready : plan.status = .ready) (oracle : Oracle)
    (options : Options) (store : FaultyModel) :
    let bare := applyPlan oracle { options with autoConnect := false } plan store
    let full := applyPlan oracle options plan store
    AccountsForActions options.stopOnError plan.actions full.1 ∧
    { full.1 with autoConnected := 0, connectFailures := [] } = bare.1 ∧
    AccountsForConnections options.autoConnect full.1 bare.2 full.2 := by
  intro bare full
  have hactions := accountsForActions_applyPlan hready oracle options store
  have hfull : full = _ := applyPlan_eq hready oracle options store
  have hbare : bare = _ :=
    (applyPlan_eq hready oracle { options with autoConnect := false } store).trans
      (conclude_off rfl _ _)
  obtain ⟨hconnected, hfailures⟩ := connections_foldl_record
    (outcomesFrom 0 (judge oracle options.stopOnError false (.start store) plan.actions).1)
    (.start .apply)
  have hrest := conclude_rest options
    ((outcomesFrom 0 (judge oracle options.stopOnError false (.start store) plan.actions).1).foldl
      Result.record (.start .apply))
    (judge oracle options.stopOnError false (.start store) plan.actions).2
  have hconnections := accountsForConnections_conclude options
    (touched_foldl_record oracle options.stopOnError store plan.actions) hconnected hfailures
  rw [hconnected, hfailures] at hrest
  rw [← hfull] at hrest hconnections
  rw [hbare]
  exact ⟨hactions, hrest, hconnections⟩

/-- Two elements and their two relationships on two views, and the second call for a connection is
refused: one connection on the first view, both on the second. -/
theorem applyPlan_accounts_sample :
    let oracle : Oracle := ⟨fun _ _ _ => true, fun _ => none, fun _ => none⟩
    let operations : List Model.Operation := [
      .createElement .applicationComponent "CRM",
      .createElement .applicationComponent "Billing",
      .createRelationship .serving "element-1" "element-2" "",
      .createRelationship .flow "element-2" "element-1" ""]
    let store : FaultyModel := ⟨operations.foldl Model.Operation.run (.new "Office"),
      fun call n => if call = .connectInView ∧ n = 2 then some (.notFound "r") else none,
      fun _ => 0⟩
    let plan : ChangePlan := ⟨.v1, .ready, "", [], [
      .createView "First" (some "a"),
      .createView "Second" (some "b"),
      .addToView "a" "element-1" none none none none,
      .addToView "a" "element-2" none none none none,
      .addToView "b" "element-1" none none none none,
      .addToView "b" "element-2" none none none none]⟩
    let bare := applyPlan oracle ⟨.apply, true, false⟩ plan store
    let full := applyPlan oracle ⟨.apply, true, true⟩ plan store
    full.1.ok = true ∧ full.1.applied = 6 ∧ full.1.failedViews = ["view-5"] ∧
      full.1.connectError?.isSome ∧ Refused bare.2 full.2 ∧
      (full.2.model.views.flatMap View.connections).length = 3 := by
  intro oracle operations store plan bare full
  obtain ⟨hactions, -, hconnections⟩ :=
    applyPlan_accounts (show plan.status = .ready from rfl) oracle ⟨.apply, true, true⟩ store
  have hfailed : full.1.failed = 0 := by decide +kernel
  have hskipped : full.1.skipped = 0 := by decide +kernel
  have happlied : full.1.applied + full.1.failed + full.1.skipped = 6 := hactions.total
  have herror : full.1.connectError?.isSome := by decide +kernel
  have hpresent : ∀ view ∈ full.1.touched, view ∈ bare.2.model.viewIds := by decide +kernel
  have hrefused := (hconnections.error_iff.mp herror).2.resolve_right fun ⟨view, hview, hmissing⟩ =>
    hmissing (hpresent view hview)
  have hnone : (bare.2.model.views.flatMap View.connections).length = 0 := by decide +kernel
  have hconnected : full.1.autoConnected = 3 := by decide +kernel
  refine ⟨hactions.ok_iff.mpr hfailed, by omega, by decide +kernel, herror, hrefused, ?_⟩
  rw [hconnections.total, hnone, hconnected]

end ArchChange.Execution
