import ArchChange.Proofs.Execution.History
import ArchChange.Proofs.Validation.Warnings
/-!
The bookkeeping of deletions is exact. The validator works out what a deletion takes with it on
the model as it was, and the executor on the model as it is; yet where references have names of
their own, ids are not used twice and all actions are applied, both delete the same entities of
the old model.
-/
namespace ArchChange

namespace Execution

open Validation

variable {oracle : Oracle} {scope : Option Scope} {m : Model} {id x : String}
  {actions : List Action} {k : Nat}

/-- A run all of whose actions are applied is the same whether failures would stop it or not. -/
theorem judge_eq_of_applied {stopOnError : Bool} {run : Run Model}
    (h : ∀ p ∈ (judge oracle stopOnError false run actions).1, p.2.isApplied) :
    judge oracle stopOnError false run actions = judge oracle false false run actions := by
  induction actions generalizing run with
  | nil => rfl
  | cons action actions ih =>
    rcases hmade : (applyAction oracle action).run run with ⟨made, run'⟩
    rw [judge_cons hmade] at h ⊢
    have happlied : (applyVerdict made).isApplied := h _ List.mem_cons_self
    have hfailed : (applyVerdict made).isFailed = false := by
      simpa using not_isFailed_of_isApplied happlied
    rw [hfailed, Bool.false_and] at h ⊢
    rw [ih fun p hp => h p (List.mem_cons_of_mem _ hp), judge_cons_false, hmade]

/-- A plan that was checked, all of whose actions are applied, on a model in which ids are not
used twice, with room for new ones; its references are no ids of the model. -/
structure Plain (oracle : Oracle) (scope : Option Scope) (m : Model) (actions : List Action) :
    Prop extends Checked oracle scope m actions where
  numbered : m.Numbered
  room : m.reach + actions.length < Model.counterSize
  free : ∀ k, (hk : k < actions.length) →
    ¬ Obstructed m (runAfter oracle m actions k).store actions[k]
  refs : ∀ ref, Declared actions ref → ref ∉ m.entityIds

namespace Plain

variable (h : Plain oracle scope m actions)

include h

theorem not_declares (hk : k ≤ actions.length) (hid : id ∈ m.entityIds) :
    ¬ (tablesAfter oracle m scope actions k).declares id := by
  rw [(h.agrees hk).declares_iff]
  intro hdeclared
  refine h.refs id ?_ hid
  have htake := (List.take_sublist k actions).subset
  rcases hdeclared with he | hv
  · obtain ⟨action, hmem, href⟩ := List.mem_filterMap.mp he
    exact Or.inl (List.mem_filterMap.mpr ⟨action, htake hmem, href⟩)
  · obtain ⟨action, hmem, href⟩ := List.mem_filterMap.mp hv
    exact Or.inr (List.mem_filterMap.mpr ⟨action, htake hmem, href⟩)

/-- What is missing once stays missing. -/
theorem missing_succ (hk : k < actions.length) (hx : x ∈ m.entityIds)
    (hmissing : x ∉ (runAfter oracle m actions k).store.entityIds) :
    x ∉ (runAfter oracle m actions (k + 1)).store.entityIds :=
  h.numbered.not_mem (allocates_runAfter h.room (Nat.le_of_lt hk))
    (allocates_runAfter_succ h.room hk) hx hmissing

theorem goneBy_iff (hk : k ≤ actions.length) (hx : x ∈ m.entityIds) :
    goneBy oracle m actions k x ↔ x ∉ (runAfter oracle m actions k).store.entityIds := by
  induction k with
  | zero => exact iff_of_false (not_goneBy_zero x) (not_not_intro hx)
  | succ k ih =>
    rw [goneBy_succ, goneLater, ih (Nat.le_of_succ_le hk)]
    constructor
    · rintro (hmissing | ⟨-, hmissing⟩)
      · exact h.missing_succ hk hx hmissing
      · exact hmissing
    · intro hmissing
      exact Or.inr ⟨hx, hmissing⟩

/-- An element or a view of the model that is deleted takes its cascade with it. -/
theorem loses_deleteElement (hk : k < actions.length) (haction : actions[k] = .deleteElement id)
    (hid : id ∈ m.entityIds) : (runAfter oracle m actions k).store.Loses
      ((runAfter oracle m actions k).store.cascade id ++ [id])
      (runAfter oracle m actions (k + 1)).store := by
  have hdeclares := h.not_declares (Nat.le_of_lt hk) hid
  have haccepts := h.accepts hk
  obtain ⟨done, -, hmakes⟩ := h.makes hk (h.free k hk)
  rw [haction] at haccepts hmakes
  obtain ⟨live, hlive, hloses, -⟩ := hmakes
  obtain ⟨c, live', hs, -⟩ := (h.tracks (Nat.le_of_lt hk)).standsFor haccepts
  obtain rfl : live = live' := Option.some.inj (hlive.symm.trans hs.live?)
  rcases hs.origin with href | ⟨rfl, -⟩
  · exact absurd ((h.tracks (Nat.le_of_lt hk)).declares_of_lookup href) hdeclares
  · exact hloses

/-- What an action deletes in the tables is missing from the store after it. -/
theorem missing_of_deletes (hk : k < actions.length) (hx : x ∈ m.entityIds)
    (hdeletes : (tablesAfter oracle m scope actions k).Deletes m x actions[k]) :
    x ∉ (runAfter oracle m actions (k + 1)).store.entityIds := by
  cases haction : actions[k] with
  | deleteElement target =>
    have haccepts := h.accepts hk
    rw [haction] at hdeletes haccepts
    by_cases hgone : goneBy oracle m actions k x
    · exact h.missing_succ hk hx ((h.goneBy_iff (Nat.le_of_lt hk) hx).mp hgone)
    · rcases hdeletes with rfl | ⟨-, hcascade⟩
      · rw [(h.loses_deleteElement hk haction hx).mem_entityIds_iff]
        simp
      · obtain ⟨hne, hpath⟩ := Model.mem_cascade.mp hcascade
        have htarget : target ∈ m.entityIds := by
          obtain ⟨b, -, hb⟩ := Relation.TransGen.tail'_iff.mp hpath
          exact List.mem_append_left _ (h.wellFormed.mem_endpointIds_of_attached hb)
        obtain ⟨-, hpath'⟩ := (h.tracks (Nat.le_of_lt hk)).transGen_store hgone hpath
        have hstore : x ∈ (runAfter oracle m actions k).store.cascade target :=
          Model.mem_cascade.mpr ⟨hne, hpath'⟩
        rw [(h.loses_deleteElement hk haction htarget).mem_entityIds_iff]
        simp [hstore]
  | deleteRelationship target =>
    obtain ⟨done, -, hmakes⟩ := h.makes hk (h.free k hk)
    rw [haction] at hdeletes hmakes
    obtain rfl : x = target := hdeletes
    rw [hmakes.1.mem_entityIds_iff]
    simp
  | _ =>
    rw [haction] at hdeletes
    exact hdeletes.elim

/-- The ids of the model that are missing from the store are those that the tables take for
deleted. -/
theorem missing_iff_isDeleted (hk : k ≤ actions.length) (hx : x ∈ m.entityIds) :
    x ∉ (runAfter oracle m actions k).store.entityIds ↔
      (tablesAfter oracle m scope actions k).isDeleted x := by
  constructor
  · intro hmissing
    exact (h.tracks hk).deleted x ⟨hx, k, Nat.le_refl k, hmissing⟩
  · induction k with
    | zero =>
      intro hdeleted
      simp [tablesAfter, checkActions, Tables.empty, Tables.isDeleted] at hdeleted
    | succ k ih =>
      rw [(h.advances hk).deleted]
      rintro (hdeletes | hdeleted)
      · exact h.missing_of_deletes hk hx hdeletes
      · exact h.missing_succ hk hx (ih (Nat.le_of_succ_le hk) hdeleted)

/-- A relationship of the model is one in the store unless it is deleted in the tables. -/
theorem mem_relationshipIds_iff (hk : k ≤ actions.length) (hx : x ∈ m.relationshipIds) :
    x ∈ (runAfter oracle m actions k).store.relationshipIds ↔
      ¬ (tablesAfter oracle m scope actions k).isDeleted x := by
  have hmem : x ∈ m.entityIds := Model.mem_entityIds_of_relationship hx
  rw [← h.missing_iff_isDeleted hk hmem, not_not]
  constructor
  · intro hstore
    exact Model.mem_entityIds_of_relationship hstore
  · intro hstore
    have hgone : ¬ goneBy oracle m actions k x := by
      rw [h.goneBy_iff hk hmem]
      exact not_not_intro hstore
    obtain ⟨type, hkind⟩ := h.wellFormed.mem_relationshipIds_iff.mp hx
    refine Model.kind?_eq_relationship ⟨type, ?_⟩
    rw [(h.tracks hk).kept x hmem hgone, hkind]

/-- A deletion removes the relationships of the model that the validator has counted. -/
theorem length_removed (hk : k < actions.length) (haction : actions[k] = .deleteElement id)
    (hid : id ∈ m.entityIds) :
    (m.relationshipIds.filter fun r =>
      r ∈ (runAfter oracle m actions k).store.relationshipIds ∧
      r ∉ (runAfter oracle m actions (k + 1)).store.relationshipIds).length =
    ((m.cascade id).filter fun r =>
      !(tablesAfter oracle m scope actions k).isDeleted r).length := by
  have hdeclares := h.not_declares (Nat.le_of_lt hk) hid
  have hadvance := h.advances hk
  have haccepts := h.accepts hk
  rw [haction] at hadvance haccepts
  have hnot := Resolves.not_mem_relationshipIds haccepts h.wellFormed hdeclares
  refine ((List.perm_ext_iff_of_nodup (h.wellFormed.relationshipIds_nodup.filter _)
    ((Model.cascade_nodup m id).filter _)).mpr ?_).length_eq
  intro r
  simp only [List.mem_filter, decide_eq_true_eq, Bool.not_eq_true', Bool.eq_false_iff]
  constructor
  · rintro ⟨hr, hbefore, hafter⟩
    rw [h.mem_relationshipIds_iff (Nat.le_of_lt hk) hr] at hbefore
    rw [h.mem_relationshipIds_iff hk hr, not_not, hadvance.deleted] at hafter
    rcases hafter.resolve_right hbefore with rfl | ⟨-, hcascade⟩
    · exact absurd hr hnot
    · exact ⟨hcascade, hbefore⟩
  · rintro ⟨hcascade, hbefore⟩
    have hr : r ∈ m.relationshipIds := Model.mem_relationshipIds_of_mem_cascade hcascade
    refine ⟨hr, (h.mem_relationshipIds_iff (Nat.le_of_lt hk) hr).mpr hbefore, ?_⟩
    rw [h.mem_relationshipIds_iff hk hr, not_not, hadvance.deleted]
    exact Or.inl (Or.inr ⟨hdeclares, hcascade⟩)

end Plain

/-- What the warnings on a plan say of a deletion is said where it is checked. -/
theorem Checked.cascadeCount_eq (h : Checked oracle scope m actions) (hk : k < actions.length)
    (haction : actions[k] = .deleteElement id)
    (hd : ¬ (tablesAfter oracle m scope actions k).declares id) :
    cascadeCount (checkActions oracle m scope 0 .empty actions).1.warnings k =
      ((m.cascade id).filter fun r =>
        !(tablesAfter oracle m scope actions k).isDeleted r).length := by
  have haccepts := h.accepts hk
  rw [haction] at haccepts
  refine Eq.trans ?_ (cascadeCount_checkDeleteElement m scope k _ haccepts hd)
  have hlength : 0 + (actions.take k).length ≤ k := by
    rw [List.length_take]
    omega
  simp only [checkActions_split oracle m scope hk, haction, cascadeCount, Findings.warnings_append,
    List.findSome?_append]
  rw [findSome?_cascadeOf?_checkActions oracle m scope 0 .empty (Or.inr hlength),
    findSome?_cascadeOf?_checkActions oracle m scope (k + 1) _ (Or.inl (Nat.lt_succ_self k)),
    Option.none_or, Option.or_none]
  rfl

/-- When all outcomes tell of success, nothing has obstructed an action. -/
theorem Checked.free_of_applied {plan : ChangePlan} (h : Checked oracle scope m plan.actions)
    (hready : plan.status = .ready) {options : Options} (hmode : options.mode = .apply)
    (happlied : ∀ o ∈ (execute oracle options plan m).1.outcomes, o.verdict.isApplied)
    (k : Nat) (hk : k < plan.actions.length) :
    ¬ Obstructed m (runAfter oracle m plan.actions k).store plan.actions[k] := by
  have houtcomes : (execute oracle options plan m).1.outcomes =
      outcomesFrom 0 (judge oracle options.stopOnError false (.start m) plan.actions).1 := by
    rw [execute, hmode]
    exact outcomes_applyPlan hready oracle options m
  rw [houtcomes] at happlied
  have hjudged : ∀ p ∈ (judge oracle options.stopOnError false (.start m) plan.actions).1,
      p.2.isApplied := by
    intro p hp
    have hsaid := List.mem_map_of_mem (f := fun p : Action × Verdict => (p.1.op, p.2)) hp
    rw [← said_outcomesFrom 0] at hsaid
    obtain ⟨o, ho, heq⟩ := List.mem_map.mp hsaid
    have hverdict : o.verdict = p.2 := congrArg Prod.snd heq
    exact hverdict ▸ happlied o ho
  have hrun := judge_eq_of_applied hjudged
  rw [hrun] at hjudged
  have hverdict := hjudged _ (List.mem_of_getElem? (getElem?_judge hk))
  exact ((h.tracks (Nat.le_of_lt hk)).step h.wellFormed (h.accepts hk) (h.labelKnown hk)
    (h.advances hk)).2.1.mp hverdict

/-- The bookkeeping of deletions is exact: in a model that came about by operations alone, a valid
plan whose references have no ids of that model, and all of whose actions are applied, has after
each of its actions deleted those entities of the model that the validator takes for deleted, and
each deletion removes as many relationships of the model as its warning says. The counter is to have
room for all allocations, so that no id comes back. -/
theorem deletions_exact (oracle : Oracle) (scope : Option Scope) (value : Json) (name : String)
    (operations : List Model.Operation) (options : Options) (hmode : options.mode = .apply) :
    let m := operations.foldl Model.Operation.run (.new name)
    let report := validate oracle m scope value
    report.isValid = true → ∃ plan, report.plan = some plan ∧ (plan.status = .ready →
      (Model.new name).HasRoom
        ((operations.map Model.Operation.cost).sum + plan.actions.length) →
      (∀ ref, Declared plan.actions ref → ref ∉ m.entityIds) →
      (∀ o ∈ (execute oracle options plan m).1.outcomes, o.verdict.isApplied) →
      (∀ k ≤ plan.actions.length, ∀ x ∈ m.entityIds,
        x ∉ (storeAfter oracle plan k m).entityIds ↔
          (tablesAfter oracle m scope plan.actions k).isDeleted x) ∧
      ∀ k id, plan.actions[k]? = some (.deleteElement id) → id ∈ m.entityIds →
        cascadeCount report.warnings k = (m.relationshipIds.filter fun r =>
          r ∈ (storeAfter oracle plan k m).relationshipIds ∧
          r ∉ (storeAfter oracle plan (k + 1) m).relationshipIds).length) := by
  intro m report hvalid
  have hm : m.WellFormed := ((Model.new_wellFiled name).runAll operations).toWellFormed
  obtain ⟨plan, hschema, hplan, hchecked⟩ := exists_checked_of_isValid hm hvalid
  refine ⟨plan, hplan, fun hready hroom hrefs happlied => ?_⟩
  have hreach := hroom.reach_lt
  have hbuilt : Model.Allocates (operations.map Model.Operation.cost).sum (.new name) m :=
    Model.allocates_foldl (by omega)
  have hgrown := hbuilt.reach_le
  have h : Plain oracle scope m plan.actions := ⟨hchecked,
    hbuilt.numbered (Model.numbered_new name), by omega,
    hchecked.free_of_applied hready hmode happlied, hrefs⟩
  constructor
  · intro k hk x hx
    rw [storeAfter_eq_runAfter hready]
    exact h.missing_iff_isDeleted hk hx
  · intro k id haction hid
    obtain ⟨hk, haction⟩ := List.getElem?_eq_some_iff.mp haction
    have hwarnings : report.warnings = (checkSchema oracle value).warnings ++
        (checkActions oracle m scope 0 .empty plan.actions).1.warnings := by
      simp [report, validate, hschema]
    rw [storeAfter_eq_runAfter hready, storeAfter_eq_runAfter hready,
      h.length_removed hk haction hid,
      ← hchecked.cascadeCount_eq hk haction (h.not_declares (Nat.le_of_lt hk) hid), hwarnings,
      cascadeCount, List.findSome?_append, findSome?_cascadeOf?_checkSchema, Option.none_or,
      cascadeCount]

/-- A plan that deletes a relationship of a cascade, adds another one to it, and then deletes the
element: one old relationship is left to go. -/
theorem deletions_exact_sample :
    let oracle : Oracle :=
      ⟨fun _ _ _ => true, fun _ => some .businessActor, fun _ => some .association⟩
    let operations : List Model.Operation := [
      .createElement .businessActor "Clerk",
      .createElement .businessActor "Client",
      .createRelationship .association "element-1" "element-2" "",
      .createRelationship .association "element-2" "relationship-3" ""]
    let m := operations.foldl Model.Operation.run (.new "Office")
    let plan : ChangePlan := ⟨.v1, .ready, "", [], [
      .deleteRelationship "relationship-4",
      .createElement "Actor" "Agent" (some "agent") none,
      .createRelationship "Association" "agent" "element-1" none,
      .deleteElement "element-1"]⟩
    let report := validate oracle m none plan.toJson
    report.isValid = true ∧ report.plan = some plan ∧
      "relationship-3" ∉ (storeAfter oracle plan 4 m).entityIds ∧
      cascadeCount report.warnings 3 = 1 ∧
      (m.relationshipIds.filter fun r =>
        r ∈ (storeAfter oracle plan 3 m).relationshipIds ∧
        r ∉ (storeAfter oracle plan 4 m).relationshipIds).length = 1 := by
  intro oracle operations m plan report
  have hvalid : report.isValid = true := by decide +kernel
  have hdecoded : report.plan = some plan := by decide +kernel
  obtain ⟨decoded, hplan, h⟩ := deletions_exact oracle none plan.toJson "Office" operations
    ⟨.apply, true, false⟩ rfl hvalid
  obtain rfl : plan = decoded := Option.some.inj (hdecoded.symm.trans hplan)
  have hrefs : ∀ ref, Declared plan.actions ref → ref ∉ m.entityIds := by
    intro ref hdeclared
    have hagent : "agent" = ref := by
      simpa [Declared, elementRefs, viewRefs, plan, Action.elementRef?, Action.viewRef?]
        using hdeclared
    rw [← hagent]
    decide +kernel
  have happlied : ∀ o ∈ (execute oracle ⟨.apply, true, false⟩ plan m).1.outcomes,
      o.verdict.isApplied := by
    decide +kernel
  have hroom : (Model.new "Office").HasRoom
      ((operations.map Model.Operation.cost).sum + plan.actions.length) := by
    decide +kernel
  obtain ⟨hmissing, hcounts⟩ := h rfl hroom hrefs happlied
  have hdeleted : (tablesAfter oracle m none plan.actions 4).isDeleted "relationship-3" := by
    decide +kernel
  have hcount : cascadeCount report.warnings 3 = 1 := by decide +kernel
  have hremoved := hcounts 3 "element-1" rfl (by decide +kernel)
  exact ⟨hvalid, hdecoded, (hmissing 4 (by decide) _ (by decide +kernel)).mpr hdeleted, hcount,
    hremoved.symm.trans hcount⟩

end Execution

end ArchChange
