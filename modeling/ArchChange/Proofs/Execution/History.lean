import ArchChange.Proofs.Execution.Soundness
import ArchChange.Proofs.Model.Numbering
import ArchChange.Proofs.Validation.Scoping
/-!
The course of a plan that was validated, stage by stage: the run and the tables after its first
actions, and what of the old model is gone by then.
-/
namespace ArchChange

/-- A list is its first items, the next one and the rest. -/
theorem eq_take_append_cons_drop {α : Type} {l : List α} {k : Nat} (hk : k < l.length) :
    l = l.take k ++ l[k] :: l.drop (k + 1) := by
  rw [← List.drop_eq_getElem_cons hk, List.take_append_drop]

namespace Validation

section

variable {σ : Type} [EntityLookup σ] (oracle : Oracle) (store : σ) (scope : Option Scope)

theorem checkActions_cons (index : Nat) (t : Tables) (action : Action) (actions : List Action) :
    checkActions oracle store scope index t (action :: actions) =
      ((checkAction oracle store scope index action t).1 ++
        (checkActions oracle store scope (index + 1)
          (checkAction oracle store scope index action t).2 actions).1,
      (checkActions oracle store scope (index + 1)
        (checkAction oracle store scope index action t).2 actions).2) := rfl

theorem Findings.append_assoc (f g h : Findings) : f ++ g ++ h = f ++ (g ++ h) := by
  change Findings.mk _ _ = Findings.mk _ _
  congr 1
  · exact List.append_assoc _ _ _
  · exact List.append_assoc _ _ _

theorem checkActions_append (index : Nat) (t : Tables) (first rest : List Action) :
    checkActions oracle store scope index t (first ++ rest) =
      ((checkActions oracle store scope index t first).1 ++
        (checkActions oracle store scope (index + first.length)
          (checkActions oracle store scope index t first).2 rest).1,
      (checkActions oracle store scope (index + first.length)
        (checkActions oracle store scope index t first).2 rest).2) := by
  induction first generalizing index t with
  | nil => rfl
  | cons action first ih =>
    have hlength : index + (action :: first).length = index + 1 + first.length := by
      rw [List.length_cons]
      omega
    rw [List.cons_append, checkActions_cons, ih, checkActions_cons, hlength, Findings.append_assoc]

/-- The tables after the first `k` actions. -/
def tablesAfter (actions : List Action) (k : Nat) : Tables :=
  (checkActions oracle store scope 0 .empty (actions.take k)).2

theorem tablesAfter_succ {actions : List Action} {k : Nat} (hk : k < actions.length) :
    tablesAfter oracle store scope actions (k + 1) = (checkAction oracle store scope k actions[k]
      (tablesAfter oracle store scope actions k)).2 := by
  have hlength : 0 + (actions.take k).length = k := by
    rw [List.length_take]
    omega
  rw [tablesAfter, List.take_succ_eq_append_getElem hk, checkActions_append, hlength]
  rfl

/-- What is found in a plan is found in its first `k` actions, in the next one, or in the rest. -/
theorem checkActions_split {actions : List Action} {k : Nat} (hk : k < actions.length) :
    (checkActions oracle store scope 0 .empty actions).1 =
      (checkActions oracle store scope 0 .empty (actions.take k)).1 ++
        ((checkAction oracle store scope k actions[k]
          (tablesAfter oracle store scope actions k)).1 ++
        (checkActions oracle store scope (k + 1) (tablesAfter oracle store scope actions (k + 1))
          (actions.drop (k + 1))).1) := by
  have hlength : 0 + (actions.take k).length = k := by
    rw [List.length_take]
    omega
  conv_lhs => rw [eq_take_append_cons_drop hk, checkActions_append, checkActions_cons, hlength]
  rw [tablesAfter_succ oracle store scope hk]
  rfl

end

end Validation

namespace Execution

open Validation

variable {oracle : Oracle} {scope : Option Scope} {m : Model} {actions : List Action} {k : Nat}

theorem judge_append (run : Run Model) (first rest : List Action) :
    judge oracle false false run (first ++ rest) =
      ((judge oracle false false run first).1 ++
        (judge oracle false false (judge oracle false false run first).2 rest).1,
      (judge oracle false false (judge oracle false false run first).2 rest).2) := by
  induction first generalizing run with
  | nil => rfl
  | cons action first ih => rw [List.cons_append, judge_cons_false, ih, judge_cons_false]; rfl

/-- The run after the first `k` actions, when no failure stops it. -/
def runAfter (oracle : Oracle) (m : Model) (actions : List Action) (k : Nat) : Run Model :=
  (judge oracle false false (.start m) (actions.take k)).2

theorem runAfter_succ (hk : k < actions.length) : runAfter oracle m actions (k + 1) =
    ((applyAction oracle actions[k]).run (runAfter oracle m actions k)).2 := by
  rw [runAfter, List.take_succ_eq_append_getElem hk, judge_append, judge_cons_false]
  rfl

/-- Where the counter has room for all actions, they allocate one id each at most. -/
theorem allocates_runAfter (hroom : m.reach + actions.length < Model.counterSize)
    (hk : k ≤ actions.length) : Model.Allocates k m (runAfter oracle m actions k).store := by
  induction k with
  | zero => exact .refl m
  | succ k ih =>
    have hbefore := ih (Nat.le_of_succ_le hk)
    have hreach := hbefore.reach_le
    rw [runAfter_succ hk]
    exact hbefore.trans ((AllocatesOnce.applyAction oracle _ _).allocates (by omega))

theorem allocates_runAfter_succ (hroom : m.reach + actions.length < Model.counterSize)
    (hk : k < actions.length) : Model.Allocates 1 (runAfter oracle m actions k).store
      (runAfter oracle m actions (k + 1)).store := by
  have hbefore : Model.Allocates k m (runAfter oracle m actions k).store :=
    allocates_runAfter hroom (Nat.le_of_lt hk)
  have hreach := hbefore.reach_le
  rw [runAfter_succ hk]
  exact (AllocatesOnce.applyAction oracle _ _).allocates (by omega)

/-- The verdict on an action is that on the run that the actions before it have left. -/
theorem getElem?_judge (hk : k < actions.length) :
    (judge oracle false false (.start m) actions).1[k]? = some (actions[k], applyVerdict
      ((applyAction oracle actions[k]).run (runAfter oracle m actions k)).1) := by
  have hlength : (judge oracle false false (.start m) (actions.take k)).1.length = k := by
    rw [← List.length_map (f := Prod.fst), map_fst_judge, List.length_take]
    omega
  conv_lhs => rw [eq_take_append_cons_drop hk, judge_append, judge_cons_false]
  rw [List.getElem?_append_right (by omega), hlength, Nat.sub_self]
  rfl

/-- Stopped by a failure or not, a run ends as one that is not stopped stands at some time. -/
theorem exists_judge_take (stopOnError : Bool) (run : Run Model) (actions : List Action) :
    ∃ n ≤ actions.length, (judge oracle stopOnError false run actions).2 =
      (judge oracle false false run (actions.take n)).2 := by
  induction actions generalizing run with
  | nil => exact ⟨0, Nat.le_refl 0, rfl⟩
  | cons action actions ih =>
    rcases hmade : (applyAction oracle action).run run with ⟨made, run'⟩
    rw [judge_cons hmade]
    cases hstop : (applyVerdict made).isFailed && stopOnError with
    | true =>
      refine ⟨1, by simp, ?_⟩
      rw [judge_halted, List.take_succ_cons, List.take_zero, judge_cons_false, hmade]
      rfl
    | false =>
      obtain ⟨n, hn, heq⟩ := ih run'
      refine ⟨n + 1, Nat.succ_le_succ hn, ?_⟩
      rw [List.take_succ_cons, judge_cons_false, hmade]
      exact heq

theorem exists_runAfter (oracle : Oracle) (stopOnError : Bool) (m : Model)
    (actions : List Action) : ∃ n ≤ actions.length,
      (judge oracle stopOnError false (.start m) actions).2 = runAfter oracle m actions n :=
  exists_judge_take stopOnError (.start m) actions

theorem storeAfter_eq_runAfter {plan : ChangePlan} (h : plan.status = .ready) (k : Nat) :
    storeAfter oracle plan k m = (runAfter oracle m plan.actions k).store :=
  storeAfter_eq h oracle k m

/-- The outcome of an action tells what it came to on the run that the actions before it left. -/
theorem getElem?_outcomes {plan : ChangePlan} (h : plan.status = .ready) (autoConnect : Bool)
    (hk : k < plan.actions.length) :
    (execute oracle ⟨.apply, false, autoConnect⟩ plan m).1.outcomes[k]? =
      some ⟨k, plan.actions[k].op, applyVerdict
        ((applyAction oracle plan.actions[k]).run (runAfter oracle m plan.actions k)).1⟩ := by
  have houtcomes : (execute oracle ⟨.apply, false, autoConnect⟩ plan m).1.outcomes =
      outcomesFrom 0 (judge oracle false false (.start m) plan.actions).1 :=
    outcomes_applyPlan h oracle ⟨.apply, false, autoConnect⟩ m
  rw [houtcomes, getElem?_outcomesFrom, getElem?_judge hk, Nat.zero_add]
  rfl

/-- What is not skipped comes to the same whether failures stop the run or not. -/
theorem judge_of_not_isSkipped {stopOnError : Bool} {run : Run Model} {p : Action × Verdict}
    (hp : (judge oracle stopOnError false run actions).1[k]? = some p) (hskip : ¬ p.2.isSkipped) :
    (judge oracle false false run actions).1[k]? = some p ∧
    (judge oracle stopOnError false run (actions.take (k + 1))).2 =
      (judge oracle false false run (actions.take (k + 1))).2 := by
  induction actions generalizing run k with
  | nil => simp [judge] at hp
  | cons action actions ih =>
    rcases hmade : (applyAction oracle action).run run with ⟨made, run'⟩
    rw [judge_cons hmade] at hp
    rw [List.take_succ_cons, judge_cons_false, judge_cons_false, judge_cons hmade, hmade]
    cases k with
    | zero => exact ⟨hp, by rw [List.take_zero]; rfl⟩
    | succ k =>
      cases hstop : (applyVerdict made).isFailed && stopOnError with
      | true =>
        rw [hstop, judge_halted, List.getElem?_cons_succ, List.getElem?_map] at hp
        obtain ⟨a, -, rfl⟩ := Option.map_eq_some_iff.mp hp
        exact absurd rfl hskip
      | false =>
        rw [hstop] at hp
        exact ih hp

/-- The outcome of an action that is not skipped, and the store right after it, are those of a run
that no failure stops. -/
theorem outcome_of_not_isSkipped {plan : ChangePlan} (h : plan.status = .ready)
    {options : Options} (hmode : options.mode = .apply) {o : Outcome}
    (ho : (execute oracle options plan m).1.outcomes[k]? = some o) (hskip : ¬ o.verdict.isSkipped) :
    ∃ hk : k < plan.actions.length,
      o = ⟨k, plan.actions[k].op, applyVerdict
        ((applyAction oracle plan.actions[k]).run (runAfter oracle m plan.actions k)).1⟩ ∧
      (execute oracle { options with autoConnect := false }
          { plan with actions := plan.actions.take (k + 1) } m).2 =
        (runAfter oracle m plan.actions (k + 1)).store := by
  have hready : { plan with actions := plan.actions.take (k + 1) }.status = .ready := h
  simp only [execute, hmode] at ho ⊢
  rw [outcomes_applyPlan h, getElem?_outcomesFrom] at ho
  obtain ⟨p, hp, rfl⟩ := Option.map_eq_some_iff.mp ho
  obtain ⟨hjudged, hrun⟩ := judge_of_not_isSkipped hp hskip
  have hk : k < plan.actions.length := by
    obtain ⟨hlt, -⟩ := List.getElem?_eq_some_iff.mp hp
    rwa [← List.length_map (f := Prod.fst), map_fst_judge] at hlt
  rw [getElem?_judge hk] at hjudged
  cases hjudged
  refine ⟨hk, by rw [Nat.zero_add], ?_⟩
  rw [applyPlan_eq hready]
  exact congrArg Run.store hrun

/-- The id belonged to the old model, and some time during the first `k` actions the store has
lacked it. -/
def goneBy (oracle : Oracle) (m : Model) (actions : List Action) (k : Nat) (x : String) : Prop :=
  x ∈ m.entityIds ∧ ∃ j ≤ k, x ∉ (runAfter oracle m actions j).store.entityIds

theorem not_goneBy_zero (x : String) : ¬ goneBy oracle m actions 0 x := by
  rintro ⟨hx, j, hj, hmissing⟩
  obtain rfl := Nat.le_zero.mp hj
  exact hmissing hx

theorem goneBy_succ (x : String) : goneBy oracle m actions (k + 1) x ↔
    goneLater m (goneBy oracle m actions k) (runAfter oracle m actions (k + 1)) x := by
  constructor
  · rintro ⟨hx, j, hj, hmissing⟩
    rcases Nat.lt_or_eq_of_le hj with hj | rfl
    · exact Or.inl ⟨hx, j, Nat.le_of_lt_succ hj, hmissing⟩
    · exact Or.inr ⟨hx, hmissing⟩
  · rintro (⟨hx, j, hj, hmissing⟩ | ⟨hx, hmissing⟩)
    · exact ⟨hx, j, Nat.le_succ_of_le hj, hmissing⟩
    · exact ⟨hx, k + 1, Nat.le_refl _, hmissing⟩

/-- The actions of a plan that passed both phases of validation on a well-formed model. -/
structure Checked (oracle : Oracle) (scope : Option Scope) (m : Model) (actions : List Action) :
    Prop where
  wellFormed : m.WellFormed
  known : ∀ action ∈ actions, LabelKnown oracle action
  errors : (checkActions oracle m scope 0 .empty actions).1.errors = []

/-- A valid report holds a plan whose actions passed both phases. -/
theorem exists_checked_of_isValid {value : Json} (hm : m.WellFormed)
    (hvalid : (validate oracle m scope value).isValid = true) :
    ∃ plan, (checkSchema oracle value).plan = some plan ∧
      (validate oracle m scope value).plan = some plan ∧ Checked oracle scope m plan.actions := by
  rw [Report.isValid, Bool.and_eq_true] at hvalid
  cases hplan : (checkSchema oracle value).plan with
  | none =>
    rw [validate_of_no_plan oracle m scope hplan] at hvalid
    cases hvalid.1
  | some plan =>
    obtain ⟨-, hsame, hsemantic⟩ := validate_of_plan oracle m scope hplan
    exact ⟨plan, rfl, hsame, hm, labelKnown_of_checkSchema hplan, hsemantic.mp hvalid.2⟩

namespace Checked

variable (h : Checked oracle scope m actions)

include h

theorem labelKnown (hk : k < actions.length) : LabelKnown oracle actions[k] :=
  h.known _ (List.getElem_mem hk)

/-- What the semantic phase asks of an action. -/
theorem accepts (hk : k < actions.length) :
    Accepts m scope (tablesAfter oracle m scope actions k) actions[k] := by
  have herrors := h.errors
  rw [checkActions_split oracle m scope hk, Findings.errors_append, Findings.errors_append,
    List.append_eq_nil_iff, List.append_eq_nil_iff] at herrors
  exact (checkAction_errors_iff ..).mp herrors.2.1

theorem advances (hk : k < actions.length) : (tablesAfter oracle m scope actions k).Advances m
    actions[k] (tablesAfter oracle m scope actions (k + 1)) := by
  rw [tablesAfter_succ oracle m scope hk]
  exact checkAction_advances oracle m scope k _ (h.accepts hk)

/-- The tables hold what the actions so far have declared and deleted. -/
theorem agrees (hk : k ≤ actions.length) :
    Agrees m (actions.take k) (tablesAfter oracle m scope actions k) := by
  induction k with
  | zero => exact .empty m
  | succ k ih =>
    rw [List.take_succ_eq_append_getElem hk]
    exact (ih (Nat.le_of_succ_le hk)).advance (h.advances hk)

/-- The run has kept what the tables take for undeleted. -/
theorem tracks (hk : k ≤ actions.length) : Tracks m (tablesAfter oracle m scope actions k)
    (runAfter oracle m actions k) (goneBy oracle m actions k) := by
  induction k with
  | zero => exact (Tracks.start h.wellFormed).congr fun x => by simp [not_goneBy_zero]
  | succ k ih =>
    refine Tracks.congr ?_ goneBy_succ
    rw [runAfter_succ hk]
    exact ((ih (Nat.le_of_succ_le hk)).step h.wellFormed (h.accepts hk) (h.labelKnown hk)
      (h.advances hk)).2.2

theorem wellFormed_runAfter (hk : k ≤ actions.length) :
    (runAfter oracle m actions k).store.WellFormed :=
  (h.tracks hk).wellFormed

/-- An action that nothing obstructs is made. -/
theorem makes (hk : k < actions.length)
    (hfree : ¬ Obstructed m (runAfter oracle m actions k).store actions[k]) :
    ∃ done, (applyAction oracle actions[k]).run (runAfter oracle m actions k) =
        (.ok done, runAfter oracle m actions (k + 1)) ∧
      Makes (runAfter oracle m actions k) (runAfter oracle m actions (k + 1)) actions[k] := by
  have htracks := h.tracks (Nat.le_of_lt hk)
  have hfeasible := (htracks.feasible_iff (h.accepts hk) (h.labelKnown hk)).mpr hfree
  rw [runAfter_succ hk]
  rcases accounts_applyAction htracks.wellFormed actions[k] with
    ⟨-, done, run', hrun, hmakes⟩ | ⟨hnot, -⟩
  · rw [hrun]
    exact ⟨done, rfl, hmakes⟩
  · exact absurd hfeasible hnot

end Checked

end Execution

end ArchChange
