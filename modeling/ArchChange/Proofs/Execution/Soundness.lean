import ArchChange.Proofs.Execution.Containment
import ArchChange.Proofs.Execution.Simulation
/-!
Validation is sound for execution. An action that the semantic phase accepts is made when its turn
comes, whatever the actions before it have done, but for two causes that the phase does not look
into: what is attached to a relationship that is to be deleted, and where a folder path leads.
-/
namespace ArchChange

namespace Execution

open Validation

/-- What keeps an accepted action of a plan for `m` from being made on a store. -/
def Obstructed (m store : Model) : Action → Prop
  | .deleteRelationship id => store.attached id ≠ []
  | .moveToFolder _ path => Folder.atPath? path m.folders = none
  | _ => False

/-- The id stands for an entity of the class in the store: what a reference was made for, or what
the id was in the old model. -/
structure StandsFor (m : Model) (t : Tables) (run : Run Model) (gone : String → Prop)
    (id : String) (c : EntityClass) (live : String) : Prop where
  live? : run.live? id = some live
  class? : run.store.class? live = some c
  origin : (run.refs c).lookup id = some live ∨
    (live = id ∧ ¬ t.declares id ∧ id ∈ m.entityIds ∧ ¬ gone id)

variable {oracle : Oracle} {scope : Option Scope} {m : Model} {t t' : Tables}
  {run run' : Run Model} {gone : String → Prop} {id : String} {action : Action}

theorem SameRefs.refs (h : SameRefs run run') (c : EntityClass) : run'.refs c = run.refs c := by
  cases c with
  | element => exact h.elementRefs
  | view => exact h.viewRefs
  | relationship => rfl

theorem refs_of_declared (helement : run'.elementRefs =
      declared action.elementRef? id ++ run.elementRefs)
    (hview : run'.viewRefs = declared action.viewRef? id ++ run.viewRefs) (c : EntityClass) :
    run'.refs c = declared (declares? action c) id ++ run.refs c := by
  cases c with
  | element => exact helement
  | view => exact hview
  | relationship => rfl

namespace Tracks

variable (h : Tracks m t run gone)

include h

theorem elementRefs_lookup_eq_none (hl : t.elementRefs.lookup id = none) :
    run.elementRefs.lookup id = none := by
  have hrefers : (t.elementRefs.lookup id).isSome ↔ (run.elementRefs.lookup id).isSome :=
    h.refers id .element
  rw [← Option.not_isSome_iff_eq_none, ← hrefers, hl]
  simp

theorem viewRefs_lookup_eq_none (hv : id ∉ t.viewRefs) : run.viewRefs.lookup id = none := by
  have hrefers : id ∈ t.viewRefs ↔ (run.viewRefs.lookup id).isSome := h.refers id .view
  rw [← Option.not_isSome_iff_eq_none, ← hrefers]
  exact hv

theorem declares_of_lookup {c : EntityClass} {live : String}
    (hl : (run.refs c).lookup id = some live) : t.declares id := by
  have hrefers := (h.refers id c).mpr (Option.isSome_of_eq_some hl)
  rw [Tables.declares_iff]
  cases c with
  | element => exact Or.inl hrefers
  | view => exact Or.inr hrefers
  | relationship => exact hrefers.elim

/-- An entity of the old model that is not deleted in the tables is still found by its id. -/
theorem entity?_of_not_isDeleted (hd : ¬ t.isDeleted id) {e : Entity}
    (he : m.entity? id = some e) : ∃ e', run.store.entity? id = some e' ∧ e'.id = id ∧
      e'.kind = e.kind ∧ id ∈ m.entityIds ∧ ¬ gone id := by
  have hmem : id ∈ m.entityIds := Model.entity?_isSome_iff.mp (by rw [he]; rfl)
  have hgone : ¬ gone id := mt (h.deleted id) hd
  have hkind : run.store.kind? id = some e.kind := by
    rw [h.kept id hmem hgone, Model.kind?, he]
    rfl
  obtain ⟨e', he', hk⟩ := Option.map_eq_some_iff.mp hkind
  exact ⟨e', he', Model.entity?_id he', hk, hmem, hgone⟩

theorem standsFor_of_names (hd : ¬ t.isDeleted id) {c : EntityClass} (hn : Names m scope t id c) :
    ∃ live, StandsFor m t run gone id c live := by
  cases hn with
  | elementRef hl =>
    obtain ⟨live, hlive⟩ := Option.isSome_iff_exists.mp ((h.refers id .element).mp hl)
    have hlookup : run.elementRefs.lookup id = some live := hlive
    exact ⟨live, by simp [Run.live?, hlookup], (h.stands .element id live hlive hd).1,
      Or.inl hlive⟩
  | viewRef hl hv =>
    obtain ⟨live, hlive⟩ := Option.isSome_iff_exists.mp ((h.refers id .view).mp hv)
    have hlookup : run.viewRefs.lookup id = some live := hlive
    refine ⟨live, ?_, (h.stands .view id live hlive hd).1, Or.inl hlive⟩
    simp [Run.live?, h.elementRefs_lookup_eq_none hl, hlookup]
  | live e hdeclares he hs =>
    obtain ⟨e', he', hid, hk, hmem, hgone⟩ := h.entity?_of_not_isDeleted hd he
    refine ⟨id, ?_, ?_, Or.inr ⟨rfl, hdeclares, hmem, hgone⟩⟩
    · rw [Tables.declares_iff, not_or, Option.not_isSome_iff_eq_none] at hdeclares
      have hlookup : EntityLookup.entity? run.store id = some e' := he'
      simp [Run.live?, h.elementRefs_lookup_eq_none hdeclares.1,
        h.viewRefs_lookup_eq_none hdeclares.2, hlookup, hid]
    · rw [Model.class?, Model.kind?, he', Option.map_some, Option.map_some, hk]

theorem standsFor {p : EntityClass → Prop} (hr : Resolves m scope t p id) :
    ∃ c live, StandsFor m t run gone id c live ∧ p c := by
  obtain ⟨hd, c, hn, hp⟩ := hr
  obtain ⟨live, hs⟩ := h.standsFor_of_names hd hn
  exact ⟨c, live, hs, hp⟩

theorem mem_entityIds {p : EntityClass → Prop} (hr : Resolves m scope t p id) :
    ∃ live, run.live? id = some live ∧ live ∈ run.store.entityIds := by
  obtain ⟨c, live, hs, -⟩ := h.standsFor hr
  exact ⟨live, hs.live?, Model.mem_entityIds_of_class? hs.class?⟩

theorem mem_endpointIds (hr : Resolves m scope t (· ≠ .view) id) :
    ∃ live, run.live? id = some live ∧ live ∈ run.store.endpointIds := by
  obtain ⟨c, live, hs, hc⟩ := h.standsFor hr
  exact ⟨live, hs.live?, h.wellFormed.mem_endpointIds_of_class? hs.class? hc⟩

theorem mem_elementIds (hr : Resolves m scope t (· = .element) id) :
    ∃ live, run.live? id = some live ∧ live ∈ run.store.elementIds := by
  obtain ⟨c, live, hs, rfl⟩ := h.standsFor hr
  exact ⟨live, hs.live?, Model.mem_elementIds_of_class? hs.class?⟩

theorem mem_viewIds (hd : ¬ t.isDeleted id) (hv : id ∈ t.viewRefs ∨
    (¬ t.declares id ∧ ∃ e, m.entity? id = some e ∧ e.kind = .view)) :
    ∃ live, run.liveView? id = some live ∧ live ∈ run.store.viewIds := by
  rcases hv with hv | ⟨hdeclares, e, he, hk⟩
  · obtain ⟨live, hlive⟩ := Option.isSome_iff_exists.mp ((h.refers id .view).mp hv)
    have hlookup : run.viewRefs.lookup id = some live := hlive
    refine ⟨live, by simp [Run.liveView?, hlookup], ?_⟩
    exact Model.mem_viewIds_of_class? (h.stands .view id live hlive hd).1
  · obtain ⟨e', he', hid, hk', -, -⟩ := h.entity?_of_not_isDeleted hd he
    rw [Tables.declares_iff, not_or] at hdeclares
    have hlookup : EntityLookup.entity? run.store id = some e' := he'
    refine ⟨id, by simp [Run.liveView?, h.viewRefs_lookup_eq_none hdeclares.2, hlookup, hid,
      hk', hk], ?_⟩
    refine Model.kind?_eq_view ?_
    rw [Model.kind?, he', Option.map_some, hk', hk]

theorem mem_relationshipIds (hr : Accepts m scope t (.deleteRelationship id)) :
    id ∈ run.store.relationshipIds := by
  obtain ⟨hd, -, e, type, he, hk⟩ := hr
  obtain ⟨e', he', -, hk', -, -⟩ := h.entity?_of_not_isDeleted hd he
  refine Model.kind?_eq_relationship ⟨type, ?_⟩
  rw [Model.kind?, he', Option.map_some, hk', hk]

/-- What an accepted action needs is there just if nothing obstructs it. -/
theorem feasible_iff (ha : Accepts m scope t action) (hl : LabelKnown oracle action) :
    Feasible oracle run action ↔ ¬ Obstructed m run.store action := by
  cases action with
  | createElement label name ref text => exact iff_of_true hl not_false
  | createView name ref => exact iff_of_true trivial not_false
  | createRelationship label source target name =>
    exact iff_of_true ⟨hl, h.mem_endpointIds ha.1, h.mem_endpointIds ha.2⟩ not_false
  | addToView view element x y width height =>
    exact iff_of_true ⟨h.mem_viewIds ha.1.1 ha.1.2, h.mem_elementIds ha.2⟩ not_false
  | deleteRelationship id =>
    have hid := h.mem_relationshipIds ha
    simp [Feasible, Obstructed, hid]
  | moveToFolder id path =>
    have hid := h.mem_entityIds ha
    have hpath := Folder.atPath?_eq_none_congr h.folders path
    simp only [Feasible, Obstructed, hid, true_and, Option.isSome_iff_ne_none]
    exact not_congr hpath
  | deleteElement id => exact iff_of_true (h.mem_entityIds ha) not_false
  | renameElement id name => exact iff_of_true (h.mem_entityIds ha) not_false
  | setProperty id key value => exact iff_of_true (h.mem_entityIds ha) not_false
  | removeProperty id key => exact iff_of_true (h.mem_entityIds ha) not_false
  | setDocumentation id text => exact iff_of_true (h.mem_entityIds ha) not_false

/-- Deleting what an id stands for with its cascade. -/
theorem deleteElement (hm : m.WellFormed)
    (ha : Accepts m scope t (.deleteElement id)) (ht : t.Advances m (.deleteElement id) t')
    (hmakes : Makes run run' (.deleteElement id)) :
    Tracks m t' run' (goneLater m gone run') := by
  obtain ⟨c, live, hs, hc⟩ := h.standsFor ha
  obtain ⟨live', hlive', hloses, hsame⟩ := hmakes
  obtain rfl : live = live' := Option.some.inj (hs.live?.symm.trans hlive')
  have hdeleted : t'.isDeleted id := (ht.deleted id).mpr (Or.inl (Or.inl rfl))
  have hd : ¬ t.isDeleted id := ha.1
  -- an old entity is addressed by its own id
  have hold : live ∈ m.entityIds → ¬ gone live → live = id ∧ ¬ t.declares id := by
    intro hmem hgone
    rcases hs.origin with href | ⟨rfl, hdeclares, -, -⟩
    · exact absurd ((h.stands c id live href hd).2 hmem) hgone
    · exact ⟨rfl, hdeclares⟩
  refine h.loses hloses ht hsame.refs (declares?_eq_none rfl rfl) ?_ ?_
  · intro x hx hmem hgone
    rcases List.mem_append.mp hx with hx | hx
    · obtain ⟨hlive, hglive, hpath⟩ := h.transGen hm hmem hgone (Model.mem_cascade.mp hx).2
      obtain ⟨rfl, hdeclares⟩ := hold hlive hglive
      have hcascade : x ∈ m.cascade live :=
        Model.mem_cascade.mpr ⟨(Model.mem_cascade.mp hx).1, hpath⟩
      exact (ht.deleted x).mpr (Or.inl (Or.inr ⟨hdeclares, hcascade⟩))
    · obtain rfl := List.mem_singleton.mp hx
      obtain ⟨rfl, -⟩ := hold hmem hgone
      exact hdeleted
  · intro d ref x hx href hl
    have hnot : ¬ t.isDeleted ref := ht.not_isDeleted href
    obtain ⟨hclass, hgone⟩ := h.stands d ref x hx hnot
    rcases List.mem_append.mp hl with hl | hl
    · have hrel := h.wellFormed.class?_of_mem_relationshipIds
        (Model.mem_relationshipIds_of_mem_cascade hl)
      obtain rfl : d = .relationship := Option.some.inj (hclass.symm.trans hrel)
      cases hx
    · obtain rfl := List.mem_singleton.mp hl
      obtain rfl : d = c := Option.some.inj (hclass.symm.trans hs.class?)
      rcases hs.origin with hlookup | ⟨rfl, -, hmem, hkept⟩
      · obtain rfl := h.injective d ref id x hx hlookup hnot hd
        exact href hdeleted
      · exact hkept (hgone hmem)

/-- Deleting a relationship to which nothing is attached. -/
theorem deleteRelationship (ha : Accepts m scope t (.deleteRelationship id))
    (ht : t.Advances m (.deleteRelationship id) t')
    (hmakes : Makes run run' (.deleteRelationship id)) :
    Tracks m t' run' (goneLater m gone run') := by
  obtain ⟨hloses, hsame⟩ := hmakes
  refine h.loses hloses ht hsame.refs (declares?_eq_none rfl rfl) ?_ ?_
  · intro x hx hmem hgone
    exact (ht.deleted x).mpr (Or.inl (List.mem_singleton.mp hx))
  · intro d ref x hx href hl
    obtain rfl := List.mem_singleton.mp hl
    have hclass := (h.stands d ref x hx (ht.not_isDeleted href)).1
    have hrel := h.wellFormed.class?_of_mem_relationshipIds (h.mem_relationshipIds ha)
    obtain rfl : d = .relationship := Option.some.inj (hclass.symm.trans hrel)
    cases hx

/-- Making an accepted action keeps the run on the track of the tables. -/
theorem makes (hm : m.WellFormed) (ha : Accepts m scope t action)
    (ht : t.Advances m action t') (hmakes : Makes run run' action) :
    Tracks m t' run' (goneLater m gone run') := by
  cases action with
  | createElement label name ref text =>
    obtain ⟨id, type, hgains, helement, hview⟩ := hmakes
    refine h.gains hgains ht (refs_of_declared helement hview) ?_
    intro c r hr
    cases c with
    | element => rfl
    | view => cases hr
    | relationship => cases hr
  | createView name ref =>
    obtain ⟨id, hgains, helement, hview⟩ := hmakes
    refine h.gains hgains ht (refs_of_declared helement hview) ?_
    intro c r hr
    cases c with
    | element => cases hr
    | view => rfl
    | relationship => cases hr
  | createRelationship label source target name =>
    obtain ⟨id, type, hgains, hsame⟩ := hmakes
    refine h.gains hgains ht (refs_of_declared hsame.elementRefs hsame.viewRefs) ?_
    intro c r hr
    rw [declares?_eq_none rfl rfl] at hr
    cases hr
  | deleteElement id => exact h.deleteElement hm ha ht hmakes
  | deleteRelationship id => exact h.deleteRelationship ha ht hmakes
  | renameElement id name => exact h.stays hmakes.1 ht hmakes.2.refs (declares?_eq_none rfl rfl)
  | setProperty id key value => exact h.stays hmakes.1 ht hmakes.2.refs (declares?_eq_none rfl rfl)
  | removeProperty id key => exact h.stays hmakes.1 ht hmakes.2.refs (declares?_eq_none rfl rfl)
  | setDocumentation id text => exact h.stays hmakes.1 ht hmakes.2.refs (declares?_eq_none rfl rfl)
  | addToView view element x y width height =>
    exact h.stays hmakes.1 ht hmakes.2.refs (declares?_eq_none rfl rfl)
  | moveToFolder id path => exact h.stays hmakes.1 ht hmakes.2.refs (declares?_eq_none rfl rfl)

/-- An obstructed action declares nothing, so failing to make it keeps the run on the track too. -/
theorem fails (ho : Obstructed m run.store action) (ht : t.Advances m action t') :
    Tracks m t' run (goneLater m gone run) := by
  have hstays : run.store.Stays run.store := .refl h.wellFormed
  refine h.stays hstays ht (fun _ => rfl) ?_
  cases action with
  | deleteRelationship id => exact declares?_eq_none rfl rfl
  | moveToFolder id path => exact declares?_eq_none rfl rfl
  | _ => cases ho

/-- An accepted action is made just if nothing obstructs it, and either way the run goes on as
the tables do. -/
theorem step (hm : m.WellFormed) (ha : Accepts m scope t action) (hl : LabelKnown oracle action)
    (ht : t.Advances m action t') :
    ((applyVerdict ((applyAction oracle action).run run).1).isFailed ↔
      Obstructed m run.store action) ∧
    ((applyVerdict ((applyAction oracle action).run run).1).isApplied ↔
      ¬ Obstructed m run.store action) ∧
    Tracks m t' ((applyAction oracle action).run run).2
      (goneLater m gone ((applyAction oracle action).run run).2) := by
  have hf := h.feasible_iff ha hl
  rcases accounts_applyAction h.wellFormed action with
    ⟨hfeasible, done, run', hrun, hmakes⟩ | ⟨hfeasible, error, hrun⟩
  · rw [hrun]
    have hfree : ¬ Obstructed m run.store action := hf.mp hfeasible
    exact ⟨iff_of_false (by simp [applyVerdict, Verdict.isFailed]) hfree, iff_of_true rfl hfree,
      h.makes hm ha ht hmakes⟩
  · rw [hrun]
    have ho : Obstructed m run.store action := not_not.mp (mt hf.mpr hfeasible)
    exact ⟨iff_of_true rfl ho, iff_of_false (by simp [applyVerdict, Verdict.isApplied])
      (not_not_intro ho), h.fails ho ht⟩

/-- In a plan without errors each action is made, unless it is obstructed when its turn comes. -/
theorem verdicts (hm : m.WellFormed) (index : Nat) {actions : List Action}
    (hl : ∀ action ∈ actions, LabelKnown oracle action)
    (he : (checkActions oracle m scope index t actions).1.errors = []) (k : Nat)
    (hk : k < actions.length) : ∃ v, (judge oracle false false run actions).1[k]? =
        some (actions[k], v) ∧
      (v.isFailed ↔ Obstructed m (judge oracle false false run (actions.take k)).2.store
        actions[k]) ∧
      (v.isApplied ↔ ¬ Obstructed m (judge oracle false false run (actions.take k)).2.store
        actions[k]) := by
  induction actions generalizing t run gone index k with
  | nil => cases hk
  | cons action actions ih =>
    rw [checkActions, Findings.errors_append, List.append_eq_nil_iff] at he
    have ha : Accepts m scope t action := (checkAction_errors_iff ..).mp he.1
    have hadvance := checkAction_advances oracle m scope index t ha
    obtain ⟨hfailed, happlied, hnext⟩ := h.step hm ha (hl action List.mem_cons_self) hadvance
    cases k with
    | zero =>
      refine ⟨_, ?_, hfailed, happlied⟩
      rw [judge_cons_false]
      rfl
    | succ k =>
      have hrest : ∀ a ∈ actions, LabelKnown oracle a := by
        intro a ha
        exact hl a (List.mem_cons_of_mem _ ha)
      have htail := ih hnext (index + 1) hrest he.2 k (by simpa using hk)
      rw [judge_cons_false, List.take_succ_cons, judge_cons_false]
      exact htail

end Tracks

/-- The model that the first `k` actions of a plan leave. -/
def storeAfter (oracle : Oracle) (plan : ChangePlan) (k : Nat) (m : Model) : Model :=
  (execute oracle ⟨.apply, false, false⟩ { plan with actions := plan.actions.take k } m).2

theorem storeAfter_eq {plan : ChangePlan} (h : plan.status = .ready) (oracle : Oracle) (k : Nat)
    (m : Model) : storeAfter oracle plan k m =
      (judge oracle false false (.start m) (plan.actions.take k)).2.store := by
  have hready : { plan with actions := plan.actions.take k }.status = .ready := h
  have happly := applyPlan_eq hready oracle ⟨.apply, false, false⟩ m
  exact congrArg Prod.snd happly

/-- Validation is sound for execution: run on the model that it was validated on, a valid plan
has an outcome for each action, which is a failure just if the action is obstructed when its turn
comes, and else tells that the action was applied. -/
theorem outcomes_of_isValid (oracle : Oracle) (scope : Option Scope) (value : Json) (m : Model)
    (autoConnect : Bool) (hm : m.WellFormed)
    (hvalid : (validate oracle m scope value).isValid = true) :
    ∃ plan, (validate oracle m scope value).plan = some plan ∧ (plan.status = .ready →
      let outcomes := (execute oracle ⟨.apply, false, autoConnect⟩ plan m).1.outcomes
      outcomes.length = plan.actions.length ∧
      ∀ k, (hk : k < plan.actions.length) → ∃ o, outcomes[k]? = some o ∧
        o.index = k ∧ o.op = plan.actions[k].op ∧
        (o.verdict.isFailed ↔ Obstructed m (storeAfter oracle plan k m) plan.actions[k]) ∧
        (o.verdict.isApplied ↔ ¬ Obstructed m (storeAfter oracle plan k m) plan.actions[k])) := by
  rw [Report.isValid, Bool.and_eq_true] at hvalid
  cases hplan : (checkSchema oracle value).plan with
  | none =>
    rw [validate_of_no_plan oracle m scope hplan] at hvalid
    cases hvalid.1
  | some plan =>
    obtain ⟨-, hsame, hsemantic⟩ := validate_of_plan oracle m scope hplan
    have he := hsemantic.mp hvalid.2
    have hl := labelKnown_of_checkSchema hplan
    refine ⟨plan, hsame, ?_⟩
    intro hready outcomes
    have houtcomes : outcomes = outcomesFrom 0
        (judge oracle false false (.start m) plan.actions).1 :=
      outcomes_applyPlan hready oracle ⟨.apply, false, autoConnect⟩ m
    constructor
    · rw [houtcomes, length_outcomesFrom, ← List.length_map (f := Prod.fst), map_fst_judge]
    · intro k hk
      obtain ⟨v, hv, hfailed, happlied⟩ := (Tracks.start hm).verdicts hm 0 hl he k hk
      refine ⟨⟨k, plan.actions[k].op, v⟩, ?_, rfl, rfl, ?_, ?_⟩
      · rw [houtcomes, getElem?_outcomesFrom, hv, Nat.zero_add]
        rfl
      · rw [storeAfter_eq hready]
        exact hfailed
      · rw [storeAfter_eq hready]
        exact happlied

/-- A plan that fails to delete a relationship with another attached, gives a new element the id
of an old one, fails to move something to a folder that is not there, and deletes an element with
both relationships. -/
theorem outcomes_of_isValid_sample :
    let oracle : Oracle :=
      ⟨fun _ _ _ => true, fun _ => some .businessActor, fun _ => some .association⟩
    let operations : List Model.Operation := [
      .createElement .businessActor "Clerk",
      .createElement .businessActor "Client",
      .createRelationship .association "element-1" "element-2" "",
      .createRelationship .association "element-1" "relationship-3" ""]
    let m := operations.foldl Model.Operation.run (.new "Office")
    let plan : ChangePlan := ⟨.v1, .ready, "", [], [
      .deleteRelationship "relationship-3",
      .createElement "Actor" "Agent" (some "element-1") none,
      .moveToFolder "element-1" "Attic",
      .deleteElement "element-2"]⟩
    let outcomes := (execute oracle ⟨.apply, false, true⟩ plan m).1.outcomes
    m.WellFormed ∧ (validate oracle m none plan.toJson).isValid = true ∧
      (validate oracle m none plan.toJson).plan = some plan ∧ outcomes.length = 4 ∧
      (∃ o, outcomes[0]? = some o ∧ o.verdict.isFailed) ∧
      (∃ o, outcomes[2]? = some o ∧ o.verdict.isFailed) ∧
      ∃ o, outcomes[3]? = some o ∧ o.verdict.isApplied := by
  intro oracle operations m plan outcomes
  have hm : m.WellFormed := ((Model.new_wellFiled "Office").runAll operations).toWellFormed
  have hvalid : (validate oracle m none plan.toJson).isValid = true := by decide +kernel
  have hdecoded : (validate oracle m none plan.toJson).plan = some plan := by decide +kernel
  obtain ⟨decoded, hplan, h⟩ := outcomes_of_isValid oracle none plan.toJson m true hm hvalid
  obtain rfl : plan = decoded := Option.some.inj (hdecoded.symm.trans hplan)
  obtain ⟨hlength, hall⟩ := h rfl
  obtain ⟨o, ho, -, -, hfailed, -⟩ := hall 0 (by decide)
  obtain ⟨o', ho', -, -, hfailed', -⟩ := hall 2 (by decide)
  obtain ⟨o'', ho'', -, -, -, happlied⟩ := hall 3 (by decide)
  have hattached : (storeAfter oracle plan 0 m).attached "relationship-3" ≠ [] := by
    decide +kernel
  have hpath : Folder.atPath? "Attic" m.folders = none := by decide +kernel
  exact ⟨hm, hvalid, hdecoded, hlength, ⟨o, ho, hfailed.mpr hattached⟩,
    ⟨o', ho', hfailed'.mpr hpath⟩, o'', ho'', happlied.mpr not_false⟩

end Execution

end ArchChange
