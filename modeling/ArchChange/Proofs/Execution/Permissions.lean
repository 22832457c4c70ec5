import ArchChange.Proofs.Execution.History
import ArchChange.Proofs.Validation.Warnings
/-!
Relationships that the rules do not allow. The validator judges a relationship by what its ends
stand for in the tables and the model as it was, and the executor joins what they stand for in the
run; as both are of the same types, the warning is given just where a rule is broken.
-/
namespace ArchChange

namespace Validation

/-- The warnings say that the rules do not allow the relationship that an action creates. -/
def Disallows (warnings : List Issue) (action : Nat) : Prop :=
  ∃ w ∈ warnings, w.action = some action ∧ w.field = some Field.relationshipType.spelling

/-- The type of what an id stands for, where it is an element of a known type. -/
def Resolved.elementType? : Resolved → Option ElementType
  | element type => type
  | _ => none

end Validation

/-- The type of an element, and none of anything else. -/
def EntityKind.elementType? : EntityKind → Option ElementType
  | element type => some type
  | _ => none

theorem EntityKind.elementType?_eq_some_iff {kind : EntityKind} {type : ElementType} :
    kind.elementType? = some type ↔ kind = .element type := by
  cases kind <;> simp [elementType?]

namespace Validation

section

variable {σ : Type} [EntityLookup σ] (oracle : Oracle) (store : σ) (scope : Option Scope)
  (index : Nat) (t : Tables)

theorem disallows_append (warnings warnings' : List Issue) (action : Nat) :
    Disallows (warnings ++ warnings') action ↔
      Disallows warnings action ∨ Disallows warnings' action := by
  simp only [Disallows, List.mem_append, or_and_right, exists_or]

/-- Warnings on other actions say nothing about this one. -/
theorem not_disallows_checkActions {actions : List Action} {k : Nat}
    (h : k < index ∨ index + actions.length ≤ k) :
    ¬ Disallows (checkActions oracle store scope index t actions).1.warnings k := by
  rintro ⟨w, hw, haction, -⟩
  obtain ⟨i, hi, hle, hlt⟩ := action_of_mem_checkActions oracle store scope index t hw
  have hik : i = k := Option.some.inj (hi.symm.trans haction)
  omega

theorem not_disallows_checkSchema (value : Json) (k : Nat) :
    ¬ Disallows (checkSchema oracle value).warnings k := by
  rintro ⟨w, hw, haction, -⟩
  rw [action_of_mem_checkSchema oracle value hw] at haction
  cases haction

/-- What the warnings on a plan say of an action is said where it is checked. -/
theorem disallows_checkActions_iff {actions : List Action} {k : Nat} (hk : k < actions.length) :
    Disallows (checkActions oracle store scope 0 .empty actions).1.warnings k ↔
      Disallows (checkAction oracle store scope k actions[k]
        (tablesAfter oracle store scope actions k)).1.warnings k := by
  have hlength : 0 + (actions.take k).length ≤ k := by
    rw [List.length_take]
    omega
  rw [checkActions_split oracle store scope hk, Findings.warnings_append, Findings.warnings_append,
    disallows_append, disallows_append,
    or_iff_right (not_disallows_checkActions oracle store scope 0 _ (Or.inr hlength)),
    or_iff_left (not_disallows_checkActions oracle store scope (k + 1) _
      (Or.inl (Nat.lt_succ_self k)))]

theorem warnings_resolveEndpoint (field : Field) (id : String) :
    (resolveEndpoint store scope index field id t).1.warnings = [] := by
  unfold resolveEndpoint
  split <;> rfl

theorem snd_resolveEndpoint (field : Field) {id : String} {r : Resolved}
    (h : resolve store scope t id = .ok r) :
    (resolveEndpoint store scope index field id t).2 = r.elementType? := by
  rw [resolveEndpoint, h]
  cases r <;> rfl

theorem disallows_checkPermitted {source target : Option ElementType} {type : RelationshipType} :
    Disallows (checkPermitted oracle index source target (some type)).warnings index ↔
      ∃ s t, source = some s ∧ target = some t ∧ oracle.isAllowed s t type = false := by
  cases source with
  | none => simp [checkPermitted, Disallows]
  | some s =>
    cases target with
    | none => simp [checkPermitted, Disallows]
    | some t =>
      cases hallowed : oracle.isAllowed s t type with
      | true => simp [checkPermitted, hallowed, Findings.warningIf, Disallows]
      | false => simp [checkPermitted, hallowed, Findings.warningIf, Findings.warning, Disallows]

/-- The phase warns of a relationship between elements of known types that the rules do not
allow. -/
theorem disallows_createRelationship {label source target : String} {type : RelationshipType}
    (ht : oracle.relationshipType? label = some type) {r r' : Resolved}
    (hr : resolve store scope t source = .ok r) (hr' : resolve store scope t target = .ok r')
    (name : Option String) :
    Disallows (checkAction oracle store scope index
        (.createRelationship label source target name) t).1.warnings index ↔
      ∃ a b, r.elementType? = some a ∧ r'.elementType? = some b ∧
        oracle.isAllowed a b type = false := by
  simp only [checkAction, Findings.warnings_append, warnings_resolveEndpoint, List.nil_append,
    snd_resolveEndpoint store scope index t _ hr, snd_resolveEndpoint store scope index t _ hr', ht]
  exact disallows_checkPermitted oracle index

theorem elementRefs_checkTarget {id : String} {record : Tables → Findings × Tables}
    (h : (record t).2.elementRefs = t.elementRefs) :
    (checkTarget store scope index id t record).2.elementRefs = t.elementRefs := by
  unfold checkTarget
  split
  · exact h
  · rfl

/-- The table of references to elements grows by declarations alone. -/
theorem elementRefs_checkAction {action : Action} (h : action.elementRef? = none) :
    (checkAction oracle store scope index action t).2.elementRefs = t.elementRefs := by
  cases action with
  | createElement label name ref text =>
    obtain rfl : ref = none := h
    rfl
  | createView name ref =>
    cases ref with
    | none => rfl
    | some ref =>
      simp only [checkAction, declareRef]
      split <;> rfl
  | deleteElement id =>
    simp only [checkAction, checkDeleteElement]
    split <;> rfl
  | deleteRelationship id =>
    simp only [checkAction, checkDeleteRelationship]
    split
    · rfl
    · split
      · rfl
      · split <;> rfl
      · rfl
  | renameElement id name => exact elementRefs_checkTarget store scope index t rfl
  | setProperty id key value => exact elementRefs_checkTarget store scope index t rfl
  | setDocumentation id text => exact elementRefs_checkTarget store scope index t rfl
  | removeProperty id key => exact elementRefs_checkTarget store scope index t rfl
  | moveToFolder id path => exact elementRefs_checkTarget store scope index t rfl
  | createRelationship label source target name => rfl
  | addToView view element x y width height => rfl

end

end Validation

namespace Execution

open Validation

variable {oracle : Oracle} {scope : Option Scope} {m : Model} {t : Tables} {run run' : Run Model}
  {gone : String → Prop} {actions : List Action} {k : Nat} {id live : String} {c : EntityClass}

/-- An entity that an action leaves in the store is of the kind that it was. -/
theorem Makes.kind?_eq {action : Action} (h : Makes run run' action) {x : String}
    (hx : x ∈ run.store.entityIds) (hx' : x ∈ run'.store.entityIds) :
    run'.store.kind? x = run.store.kind? x := by
  have hgains : ∀ {id kind}, run.store.Gains id kind run'.store →
      run'.store.kind? x = run.store.kind? x := by
    intro id kind hg
    rw [hg.kind?, if_neg (hg.ne_of_mem hx)]
  have hloses : ∀ {l}, run.store.Loses l run'.store → run'.store.kind? x = run.store.kind? x := by
    intro l hl
    rw [hl.eq, Model.kind?_eraseAll, if_neg ((hl.mem_entityIds_iff x).mp hx').2]
  cases action with
  | createElement label name ref text =>
    obtain ⟨id, type, hg, -⟩ := h
    exact hgains hg
  | createView name ref =>
    obtain ⟨id, hg, -⟩ := h
    exact hgains hg
  | createRelationship label source target name =>
    obtain ⟨id, type, hg, -⟩ := h
    exact hgains hg
  | deleteElement id =>
    obtain ⟨live, -, hl, -⟩ := h
    exact hloses hl
  | deleteRelationship id => exact hloses h.1
  | _ => exact h.1.kind? x

theorem Makes.elementRefs_eq {action : Action} (h : Makes run run' action)
    (hnone : action.elementRef? = none) : run'.elementRefs = run.elementRefs := by
  cases action with
  | createElement label name ref text =>
    obtain rfl : ref = none := hnone
    obtain ⟨id, type, -, hrefs, -⟩ := h
    exact hrefs
  | createView name ref =>
    obtain ⟨id, -, hrefs, -⟩ := h
    exact hrefs
  | createRelationship label source target name =>
    obtain ⟨id, type, -, hrefs⟩ := h
    exact hrefs.elementRefs
  | deleteElement id =>
    obtain ⟨live, -, -, hrefs⟩ := h
    exact hrefs.elementRefs
  | _ => exact h.2.elementRefs

/-- References that are not deleted stand for elements of the types that the tables have noted. -/
def TypesAgree (t : Tables) (run : Run Model) : Prop :=
  ∀ ref id, run.elementRefs.lookup ref = some id → ¬ t.isDeleted ref →
    ∃ type, t.elementRefs.lookup ref = some (some type) ∧
      run.store.kind? id = some (.element type)

namespace Checked

variable (h : Checked oracle scope m actions)

include h

/-- An action makes no difference to the kind of what a reference to an element stands for. -/
theorem kind?_runAfter_succ (hk : k < actions.length) {ref : String}
    (href : (runAfter oracle m actions k).elementRefs.lookup ref = some id)
    (href' : (runAfter oracle m actions (k + 1)).elementRefs.lookup ref = some id)
    (hd : ¬ (tablesAfter oracle m scope actions (k + 1)).isDeleted ref) :
    (runAfter oracle m actions (k + 1)).store.kind? id =
      (runAfter oracle m actions k).store.kind? id := by
  have hbefore := (h.tracks (Nat.le_of_lt hk)).stands .element ref id href
    ((h.advances hk).not_isDeleted hd)
  have hafter := (h.tracks hk).stands .element ref id href' hd
  rw [runAfter_succ hk] at hafter ⊢
  rcases accounts_applyAction (h.wellFormed_runAfter (Nat.le_of_lt hk)) actions[k] with
    ⟨-, done, run', hrun, hmakes⟩ | ⟨-, error, hrun⟩
  · rw [hrun] at hafter ⊢
    exact hmakes.kind?_eq (Model.mem_entityIds_of_class? hbefore.1)
      (Model.mem_entityIds_of_class? hafter.1)
  · rw [hrun]

/-- The references to elements after an action that declares none. -/
theorem elementRefs_runAfter_succ (hk : k < actions.length)
    (hnone : actions[k].elementRef? = none) :
    (runAfter oracle m actions (k + 1)).elementRefs =
      (runAfter oracle m actions k).elementRefs := by
  rw [runAfter_succ hk]
  rcases accounts_applyAction (h.wellFormed_runAfter (Nat.le_of_lt hk)) actions[k] with
    ⟨-, done, run', hrun, hmakes⟩ | ⟨-, error, hrun⟩
  · rw [hrun]
    exact hmakes.elementRefs_eq hnone
  · rw [hrun]

/-- A declared element is noted in the tables with the type that it is created with. -/
theorem declares_element (hk : k < actions.length) {ref : String}
    (href : actions[k].elementRef? = some ref) : ∃ id type,
      (runAfter oracle m actions (k + 1)).elementRefs =
        (ref, id) :: (runAfter oracle m actions k).elementRefs ∧
      (tablesAfter oracle m scope actions (k + 1)).elementRefs =
        (ref, some type) :: (tablesAfter oracle m scope actions k).elementRefs ∧
      (runAfter oracle m actions (k + 1)).store.kind? id = some (.element type) := by
  have haccepts := h.accepts hk
  have hknown := h.labelKnown hk
  cases haction : actions[k] with
  | createElement label name declares text =>
    rw [haction] at href haccepts hknown
    obtain rfl : declares = some ref := href
    obtain ⟨type, htype⟩ := Option.isSome_iff_exists.mp hknown
    obtain ⟨store, hrun, hgains⟩ :=
      run_createElement (h.wellFormed_runAfter (Nat.le_of_lt hk)) htype name (some ref) text
    have hnew := haccepts ref rfl
    refine ⟨((runAfter oracle m actions k).store.allocate "element").1, type, ?_, ?_, ?_⟩
    · rw [runAfter_succ hk, haction, hrun]
      rfl
    · rw [tablesAfter_succ oracle m scope hk, haction]
      simp [checkAction, declareRef, hnew, htype]
    · rw [runAfter_succ hk, haction, hrun, hgains.kind?, if_pos rfl]
  | createView name declares => simp [haction, Action.elementRef?] at href
  | _ => simp [haction, Action.elementRef?] at href

theorem typesAgree (hk : k ≤ actions.length) :
    TypesAgree (tablesAfter oracle m scope actions k) (runAfter oracle m actions k) := by
  induction k with
  | zero =>
    intro ref id href
    simp [runAfter, judge, Run.start] at href
  | succ k ih =>
    have hbefore := ih (Nat.le_of_succ_le hk)
    intro ref id href hd
    have hd' := (h.advances hk).not_isDeleted hd
    cases hdeclares : actions[k].elementRef? with
    | none =>
      have href' := href
      rw [h.elementRefs_runAfter_succ hk hdeclares] at href'
      obtain ⟨type, hnoted, hkind⟩ := hbefore ref id href' hd'
      refine ⟨type, ?_, ?_⟩
      · rw [tablesAfter_succ oracle m scope hk, elementRefs_checkAction _ _ _ _ _ hdeclares, hnoted]
      · rw [h.kind?_runAfter_succ hk href' href hd, hkind]
    | some new =>
      obtain ⟨newId, type, hrefs, hnotes, hkind⟩ := h.declares_element hk hdeclares
      rw [hrefs, List.lookup_cons] at href
      rw [hnotes, List.lookup_cons]
      by_cases hnew : ref = new
      · rw [hnew, beq_self_eq_true] at href ⊢
        cases href
        exact ⟨type, rfl, hkind⟩
      · have hne : (ref == new) = false := by simpa using hnew
        rw [hne] at href ⊢
        obtain ⟨type', hnoted, hkind'⟩ := hbefore ref id href hd'
        refine ⟨type', hnoted, ?_⟩
        rw [h.kind?_runAfter_succ hk href (by rw [hrefs, List.lookup_cons, hne, href]) hd, hkind']

/-- What an accepted end of a relationship stands for is an element of the type that the tables
tell, or a relationship. -/
theorem kind?_of_resolve (hk : k ≤ actions.length) {r : Resolved}
    (hr : resolve m scope (tablesAfter oracle m scope actions k) id = .ok r)
    (hview : r.entityClass ≠ .view) : ∃ live kind,
      (runAfter oracle m actions k).live? id = some live ∧
      live ∈ (runAfter oracle m actions k).store.endpointIds ∧
      (runAfter oracle m actions k).store.kind? live = some kind ∧
      kind.elementType? = r.elementType? := by
  have htracks := h.tracks hk
  obtain ⟨hd, hnames⟩ := names_of_resolve hr
  have hproblem := Tables.deletedProblem?_eq_none_iff.mpr hd
  obtain ⟨live, hs⟩ := htracks.standsFor_of_names hd hnames
  have hend := htracks.wellFormed.mem_endpointIds_of_class? hs.class? hview
  generalize r.entityClass = c at hnames hview
  cases hnames with
  | elementRef hl =>
    obtain ⟨noted, hnoted⟩ := Option.isSome_iff_exists.mp hl
    obtain ⟨live', hlive'⟩ := Option.isSome_iff_exists.mp ((htracks.refers id .element).mp hl)
    have hlookup : (runAfter oracle m actions k).elementRefs.lookup id = some live' := hlive'
    obtain rfl : live' = live := by
      have hlive := hs.live?
      rw [Run.live?, hlookup] at hlive
      exact Option.some.inj hlive
    obtain ⟨type, htype, hkind⟩ := h.typesAgree hk id live' hlookup hd
    have hresolved : resolve m scope (tablesAfter oracle m scope actions k) id =
        .ok (.element (some type)) := by
      simp [resolve, hproblem, htype]
    cases hr.symm.trans hresolved
    exact ⟨live', .element type, hs.live?, hend, hkind, rfl⟩
  | viewRef hl hv => exact absurd rfl hview
  | live e hdeclares he hscope =>
    obtain ⟨e', he', -, hk', -, -⟩ := htracks.entity?_of_not_isDeleted hd he
    obtain rfl : live = id := by
      rcases hs.origin with href | ⟨rfl, -⟩
      · exact absurd (htracks.declares_of_lookup href) hdeclares
      · rfl
    refine ⟨live, e.kind, hs.live?, hend, by rw [Model.kind?, he', Option.map_some, hk'], ?_⟩
    have hin : inScope scope live := hscope.resolve_left fun hkind => hview (by rw [hkind]; rfl)
    rw [Tables.declares_iff, not_or, Option.not_isSome_iff_eq_none] at hdeclares
    simp only [resolve, hproblem, hdeclares.1, List.contains_iff_mem, hdeclares.2, he] at hr
    obtain ⟨eid, name, kind⟩ := e
    cases kind with
    | view => exact absurd rfl hview
    | element type =>
      simp only [hin, if_true, if_false, Except.ok.injEq] at hr
      rw [← hr]
      rfl
    | relationship type =>
      simp only [hin, if_true, if_false, Except.ok.injEq] at hr
      rw [← hr]
      rfl

/-- An accepted creation of a relationship is made, and is warned of if and only if the relationship
joins elements between which the rules do not allow it. -/
theorem creates_relationship (hk : k < actions.length) {label source target : String}
    {name : Option String}
    (haction : actions[k] = .createRelationship label source target name) : ∃ r a b,
      (applyVerdict ((applyAction oracle actions[k]).run
        (runAfter oracle m actions k)).1).createdId? = some r.id ∧
      (runAfter oracle m actions (k + 1)).store.relationship? r.id = some r ∧
      (runAfter oracle m actions (k + 1)).store.kind? r.source = some a ∧
      (runAfter oracle m actions (k + 1)).store.kind? r.target = some b ∧
      (Disallows (checkActions oracle m scope 0 .empty actions).1.warnings k ↔
        ∃ s t, a = .element s ∧ b = .element t ∧ oracle.isAllowed s t r.type = false) := by
  have hwell := h.wellFormed_runAfter (Nat.le_of_lt hk)
  have haccepts := h.accepts hk
  have hknown := h.labelKnown hk
  rw [haction] at haccepts hknown
  obtain ⟨type, htype⟩ := Option.isSome_iff_exists.mp hknown
  obtain ⟨p, hp, hpEnd⟩ := (resolve_iff _).mpr haccepts.1
  obtain ⟨q, hq, hqEnd⟩ := (resolve_iff _).mpr haccepts.2
  obtain ⟨s, a, hs, hsEnd, hsKind, ha⟩ := h.kind?_of_resolve (Nat.le_of_lt hk) hp hpEnd
  obtain ⟨d, b, hd, hdEnd, hdKind, hb⟩ := h.kind?_of_resolve (Nat.le_of_lt hk) hq hqEnd
  have hrun := run_createRelationship hwell htype hs hd hsEnd hdEnd name
  have hgains := (Model.gains_createRelationship hwell type (name.getD "") hsEnd hdEnd).2
  have hnew := Model.relationship?_createRelationship type (name.getD "")
    (hwell.endpointError?_eq_none_iff.mpr hsEnd) (hwell.endpointError?_eq_none_iff.mpr hdEnd)
  refine ⟨⟨((runAfter oracle m actions k).store.allocate "relationship").1, type, name.getD "", s,
    d, "", .empty⟩, a, b, ?_, ?_, ?_, ?_, ?_⟩
  · rw [haction, hrun]
    rfl
  · rw [runAfter_succ hk, haction, hrun]
    exact hnew
  · rw [runAfter_succ hk, haction, hrun, hgains.kind?,
      if_neg (hgains.ne_of_mem (List.mem_append_left _ hsEnd))]
    exact hsKind
  · rw [runAfter_succ hk, haction, hrun, hgains.kind?,
      if_neg (hgains.ne_of_mem (List.mem_append_left _ hdEnd))]
    exact hdKind
  · rw [disallows_checkActions_iff oracle m scope hk, haction,
      disallows_createRelationship oracle m scope k _ htype hp hq name, ← ha, ← hb]
    simp only [EntityKind.elementType?_eq_some_iff]

end Checked

/-- No relationship that the rules do not allow is created without its warning, and no false one is
given: in a plan that validation accepts, the creation of a relationship that is applied has a
warning on its type if and only if the relationship joins elements between which the rules do not
allow it. -/
theorem disallows_iff_not_allowed (oracle : Oracle) (m : Model) (hm : m.WellFormed)
    (scope : Option Scope) (value : Json) (options : Options) (hmode : options.mode = .apply) :
    let report := validate oracle m scope value
    report.isValid = true → ∃ plan, report.plan = some plan ∧ (plan.status = .ready →
      ∀ k label source target name,
        plan.actions[k]? = some (.createRelationship label source target name) →
      ∀ o, (execute oracle options plan m).1.outcomes[k]? = some o → o.verdict.isApplied →
      let store := (execute oracle { options with autoConnect := false }
        { plan with actions := plan.actions.take (k + 1) } m).2
      ∃ r a b, o.verdict.createdId? = some r.id ∧ store.relationship? r.id = some r ∧
        store.kind? r.source = some a ∧ store.kind? r.target = some b ∧
        (Disallows report.warnings k ↔
          ∃ s t, a = .element s ∧ b = .element t ∧ oracle.isAllowed s t r.type = false)) := by
  intro report hvalid
  obtain ⟨plan, hschema, hplan, h⟩ := exists_checked_of_isValid hm hvalid
  refine ⟨plan, hplan, fun hready k label source target name haction o ho happlied => ?_⟩
  obtain ⟨hk, rfl, hstore⟩ := outcome_of_not_isSkipped hready hmode ho
    (not_isSkipped_of_isApplied happlied)
  have hwarnings : report.warnings = (checkSchema oracle value).warnings ++
      (checkActions oracle m scope 0 .empty plan.actions).1.warnings := by
    simp [report, validate, hschema]
  obtain ⟨r, a, b, hcreated, hr, ha, hb, hiff⟩ :=
    h.creates_relationship hk (List.getElem?_eq_some_iff.mp haction).2
  refine ⟨r, a, b, hcreated, ?_, ?_, ?_, ?_⟩
  · rw [hstore, hr]
  · rw [hstore, ha]
  · rw [hstore, hb]
  · rw [hwarnings, disallows_append, hiff, or_iff_right (not_disallows_checkSchema oracle value k)]

/-- Of a plan that joins a new element to an old one, which the rules do not allow, and the old one
to a relationship, the first alone is warned of. -/
theorem disallows_iff_not_allowed_sample :
    let oracle : Oracle := ⟨fun s t _ => s = t, fun _ => some .businessRole,
      fun _ => some .association⟩
    let operations : List Model.Operation := [
      .createElement .businessActor "Clerk",
      .createRelationship .association "element-1" "element-1" ""]
    let m := operations.foldl Model.Operation.run (.new "Office")
    let plan : ChangePlan := ⟨.v1, .ready, "", [], [
      .createElement "Role" "Agent" (some "agent") none,
      .createRelationship "Association" "agent" "element-1" none,
      .createRelationship "Association" "element-1" "relationship-2" none]⟩
    let report := validate oracle m none plan.toJson
    report.isValid = true ∧ report.plan = some plan ∧ Disallows report.warnings 1 ∧
      ¬ Disallows report.warnings 2 := by
  intro oracle operations m plan report
  have hm : m.WellFormed := ((Model.new_wellFiled "Office").runAll operations).toWellFormed
  have hvalid : report.isValid = true := by decide +kernel
  have hdecoded : report.plan = some plan := by decide +kernel
  obtain ⟨decoded, hplan, h⟩ := disallows_iff_not_allowed oracle m hm none plan.toJson
    ⟨.apply, false, true⟩ rfl hvalid
  obtain rfl : plan = decoded := Option.some.inj (hdecoded.symm.trans hplan)
  refine ⟨hvalid, hdecoded, ?_, ?_⟩
  · obtain ⟨r, a, b, hid, hr, ha, hb, hiff⟩ := h rfl 1 _ _ _ _ rfl
      ⟨1, .createRelationship, .applied
        (.done (.relationshipCreated .association "element-3" "element-1")) (some "relationship-4")⟩
      (by decide +kernel) (by decide +kernel)
    obtain rfl :
        r = ⟨"relationship-4", .association, "", "element-3", "element-1", "", .empty⟩ := by
      refine Option.some.inj (hr.symm.trans ?_)
      rw [← Option.some.inj hid]
      decide +kernel
    obtain rfl : a = .element .businessRole := Option.some.inj (ha.symm.trans (by decide +kernel))
    obtain rfl : b = .element .businessActor := Option.some.inj (hb.symm.trans (by decide +kernel))
    exact hiff.mpr ⟨.businessRole, .businessActor, rfl, rfl, rfl⟩
  · obtain ⟨r, a, b, hid, hr, ha, hb, hiff⟩ := h rfl 2 _ _ _ _ rfl
      ⟨2, .createRelationship, .applied
        (.done (.relationshipCreated .association "element-1" "relationship-2"))
        (some "relationship-5")⟩
      (by decide +kernel) (by decide +kernel)
    obtain rfl : r = ⟨"relationship-5", .association, "", "element-1", "relationship-2", "",
        .empty⟩ := by
      refine Option.some.inj (hr.symm.trans ?_)
      rw [← Option.some.inj hid]
      decide +kernel
    obtain rfl : b = .relationship .association :=
      Option.some.inj (hb.symm.trans (by decide +kernel))
    rw [hiff]
    rintro ⟨s, t, -, ht, -⟩
    cases ht

end Execution

end ArchChange
