import ArchChange.Proofs.Execution.History
import ArchChange.Proofs.Model.Frame
/-!
Scope bounds what a run can change. Only validation looks at the scope; but the operations that a
run performs address what validation has seen, or what the run itself has created, so an element
or a relationship out of scope keeps its record and its folder unless it goes with an element in
scope that is deleted.
-/
namespace ArchChange

namespace Execution

open Validation

/-- One of the actions deletes an element of the model that is in scope, and the relationship
belongs to its cascade. -/
def GoesWith (m : Model) (scope : Option Scope) (actions : List Action) (r : String) : Prop :=
  ∃ k id, actions[k]? = some (.deleteElement id) ∧ ¬ Declared (actions.take k) id ∧
    id ∈ m.elementIds ∧ inScope scope id ∧ r ∈ m.cascade id

variable {oracle : Oracle} {scope : Option Scope} {m : Model} {t : Tables} {run : Run Model}
  {gone : String → Prop} {id x : String} {actions : List Action} {k : Nat}

/-- An id that stands for an entity left of the old model is its own id; no reference stands for
it, so validation has looked for it in the scope unless it is a view. -/
theorem Tracks.eq_of_resolves (h : Tracks m t run gone) {p : EntityClass → Prop}
    (hr : Resolves m scope t p id) (hl : run.live? id = some x) (hx : x ∈ m.entityIds)
    (hgone : ¬ gone x) :
    x = id ∧ ¬ t.declares id ∧ ∃ kind, m.kind? id = some kind ∧
      (kind = .view ∨ inScope scope id) := by
  obtain ⟨c, live, hs, -⟩ := h.standsFor hr
  obtain rfl : live = x := Option.some.inj (hs.live?.symm.trans hl)
  obtain ⟨hd, c', hn, -⟩ := hr
  rcases hs.origin with href | ⟨rfl, hdeclares, -, -⟩
  · exact absurd ((h.stands c id live href hd).2 hx) hgone
  · refine ⟨rfl, hdeclares, ?_⟩
    rw [Tables.declares_iff, not_or] at hdeclares
    cases hn with
    | elementRef hl => exact absurd hl hdeclares.1
    | viewRef hl hv => exact absurd hv hdeclares.2
    | live e hnot he hscope =>
      refine ⟨e.kind, ?_, hscope⟩
      have hentity : m.entity? live = some e := he
      rw [Model.kind?, hentity, Option.map_some]

namespace Checked

variable (h : Checked oracle scope m actions)

include h

/-- What stands for an element or a relationship left of the old model is in scope. -/
theorem inScope_of_resolves (hk : k < actions.length) (hx : x ∈ m.endpointIds)
    (hgone : ¬ goneBy oracle m actions k x) {p : EntityClass → Prop}
    (hr : Resolves m scope (tablesAfter oracle m scope actions k) p id)
    (hl : (runAfter oracle m actions k).live? id = some x) :
    x = id ∧ ¬ Declared (actions.take k) id ∧ inScope scope id := by
  have hmem : x ∈ m.entityIds := List.mem_append_left _ hx
  obtain ⟨rfl, hdeclares, kind, hkind, hscope⟩ :=
    (h.tracks (Nat.le_of_lt hk)).eq_of_resolves hr hl hmem hgone
  rw [(h.agrees (Nat.le_of_lt hk)).declares_iff] at hdeclares
  refine ⟨rfl, hdeclares, hscope.resolve_left ?_⟩
  rintro rfl
  obtain ⟨kind, hkind', hview⟩ := h.wellFormed.mem_endpointIds_iff.mp hx
  exact hview (Option.some.inj (hkind'.symm.trans hkind))

/-- What a deletion takes from the old model is in scope, or goes with what is. -/
theorem deletion_bound (hk : k < actions.length) (hx : x ∈ m.endpointIds)
    (hgone : ¬ goneBy oracle m actions k x) (haction : actions[k] = .deleteElement id)
    {live : String} (hl : (runAfter oracle m actions k).live? id = some live)
    (hxl : x ∈ (runAfter oracle m actions k).store.cascade live ∨ x = live) :
    inScope scope x ∨ GoesWith m scope actions x := by
  have ha := h.accepts hk
  rw [haction] at ha
  rcases hxl with hxl | rfl
  · obtain ⟨hne, hpath⟩ := Model.mem_cascade.mp hxl
    obtain ⟨hlive, hglive, hpath'⟩ := (h.tracks (Nat.le_of_lt hk)).transGen h.wellFormed
      (List.mem_append_left _ hx) hgone hpath
    have hends : live ∈ m.endpointIds := by
      obtain ⟨b, -, hb⟩ := Relation.TransGen.tail'_iff.mp hpath'
      exact h.wellFormed.mem_endpointIds_of_attached hb
    obtain ⟨rfl, hdeclares, hscope⟩ := h.inScope_of_resolves hk hends hglive ha hl
    -- a relationship is not deleted as an element, and a view has nothing attached
    have helement : live ∈ m.elementIds := by
      refine (List.mem_append.mp hends).resolve_right ?_
      refine Resolves.not_mem_relationshipIds ha h.wellFormed ?_
      rwa [(h.agrees (Nat.le_of_lt hk)).declares_iff]
    refine Or.inr ⟨k, live, ?_, hdeclares, helement, hscope, Model.mem_cascade.mpr ⟨hne, hpath'⟩⟩
    rw [List.getElem?_eq_getElem hk, haction]
  · obtain ⟨rfl, -, hscope⟩ := h.inScope_of_resolves hk hx hgone ha hl
    exact Or.inl hscope

/-- No operation of an action targets what is out of scope and goes with nothing deleted. -/
theorem not_targets (hk : k < actions.length) (hx : x ∈ m.endpointIds)
    (hgone : ¬ goneBy oracle m actions k x) (hout : ¬ inScope scope x)
    (hstays : ¬ GoesWith m scope actions x) {op : Model.Operation}
    (hop : (runAfter oracle m actions k).Calls op actions[k]) : ¬ op.Targets x := by
  have htracks := h.tracks (Nat.le_of_lt hk)
  have ha := h.accepts hk
  have hedit : ∀ {id live}, (runAfter oracle m actions k).live? id = some live →
      Resolves m scope (tablesAfter oracle m scope actions k) (fun _ => True) id → x ≠ live := by
    rintro id live hl hr rfl
    obtain ⟨rfl, -, hscope⟩ := h.inScope_of_resolves hk hx hgone hr hl
    exact hout hscope
  cases haction : actions[k] with
  | createElement label name ref text =>
    rw [haction] at hop
    rcases hop with ⟨type, rfl⟩ | ⟨text, rfl⟩
    · exact not_false
    · rintro rfl
      have hstore := htracks.mem_of_not_gone (List.mem_append_left _ hx) hgone
      exact Model.allocate_not_mem _ "element" (Model.mem_ids_of_mem_entityIds hstore)
  | createView name ref =>
    rw [haction] at hop
    obtain rfl := hop
    exact not_false
  | createRelationship label source target name =>
    rw [haction] at hop
    obtain ⟨type, a, b, -, -, rfl⟩ := hop
    exact not_false
  | addToView view element px py width height =>
    rw [haction] at hop
    obtain ⟨v, e, bounds, -, -, rfl⟩ := hop
    exact not_false
  | deleteElement id =>
    rw [haction] at hop
    obtain ⟨live, hl, y, hy, rfl⟩ := hop
    rintro rfl
    exact (h.deletion_bound hk hx hgone haction hl hy).elim hout hstays
  | deleteRelationship id =>
    rw [haction] at hop ha
    obtain rfl := hop
    rintro rfl
    exact hout ha.2.1
  | renameElement id name =>
    rw [haction] at hop ha
    obtain ⟨live, hl, rfl⟩ := hop
    exact hedit hl ha
  | setProperty id key value =>
    rw [haction] at hop ha
    obtain ⟨live, hl, rfl⟩ := hop
    exact hedit hl ha
  | removeProperty id key =>
    rw [haction] at hop ha
    obtain ⟨live, hl, rfl⟩ := hop
    exact hedit hl ha
  | setDocumentation id text =>
    rw [haction] at hop ha
    obtain ⟨live, hl, rfl⟩ := hop
    exact hedit hl ha
  | moveToFolder id path =>
    rw [haction] at hop ha
    obtain ⟨live, folder, hl, rfl⟩ := hop
    exact hedit hl ha

/-- At every stage the store spares what is out of scope and goes with nothing deleted. -/
theorem spares_runAfter (hx : x ∈ m.endpointIds) (hout : ¬ inScope scope x)
    (hstays : ¬ GoesWith m scope actions x) (hk : k ≤ actions.length) :
    m.Spares (runAfter oracle m actions k).store x ∧ ¬ goneBy oracle m actions k x := by
  induction k with
  | zero => exact ⟨.refl m x, not_goneBy_zero x⟩
  | succ k ih =>
    obtain ⟨hspares, hgone⟩ := ih (Nat.le_of_succ_le hk)
    have hstep : (runAfter oracle m actions k).store.Spares
        (runAfter oracle m actions (k + 1)).store x := by
      rw [runAfter_succ hk]
      exact (Performs.applyAction oracle (runAfter oracle m actions k) actions[k]).spares
        (fun _ hop => h.not_targets hk hx hgone hout hstays hop) (hspares.mem_endpointIds hx)
    have hnext := hspares.trans hstep
    refine ⟨hnext, ?_⟩
    rw [goneBy_succ]
    rintro (hbefore | ⟨-, hmissing⟩)
    · exact hgone hbefore
    · exact hmissing (List.mem_append_left _ (hnext.mem_endpointIds hx))

end Checked

/-- What is out of scope is spared in the model that a whole run of a checked plan leaves, with any
options. -/
theorem Checked.spares_execute {plan : ChangePlan} (h : Checked oracle scope m plan.actions)
    (hready : plan.status = .ready) {options : Options} (hmode : options.mode = .apply)
    (hx : x ∈ m.endpointIds) (hout : ¬ inScope scope x)
    (hstays : ¬ GoesWith m scope plan.actions x) :
    m.Spares (execute oracle options plan m).2 x := by
  obtain ⟨n, hn, hrun⟩ := exists_runAfter oracle options.stopOnError m plan.actions
  have hspares := (h.spares_runAfter hx hout hstays hn).1
  rw [execute, hmode]
  simp only
  rw [applyPlan_eq hready, hrun]
  refine hspares.trans ((operatesTo_conclude options _ _).spares ?_ (hspares.mem_endpointIds hx))
  rintro op ⟨view, relationship, source, target, rfl⟩
  exact not_false

/-- Scope bounds what a plan can change: when a plan that was validated under a scope has been
run, with any options, each element out of scope is there with the same record in the same folder,
and so is each relationship out of scope that does not go with an element in scope that the plan
deletes. -/
theorem scope_bounds_execute (oracle : Oracle) (scope : Scope) (value : Json) (m : Model)
    (options : Options) (hm : m.WellFormed) (hmode : options.mode = .apply)
    (hvalid : (validate oracle m (some scope) value).isValid = true) :
    ∃ plan, (validate oracle m (some scope) value).plan = some plan ∧ (plan.status = .ready →
      let after := (execute oracle options plan m).2
      (∀ e ∈ m.elements, e.id ∉ scope.ids →
        after.element? e.id = some e ∧ after.folderOf? e.id = m.folderOf? e.id) ∧
      ∀ r ∈ m.relationships, r.id ∉ scope.ids → ¬ GoesWith m (some scope) plan.actions r.id →
        after.relationship? r.id = some r ∧ after.folderOf? r.id = m.folderOf? r.id) := by
  obtain ⟨plan, -, hplan, hchecked⟩ := exists_checked_of_isValid hm hvalid
  have hout : ∀ x, x ∉ scope.ids → ¬ inScope (some scope) x := by
    intro x hx
    simpa [inScope, Scope.contains] using hx
  refine ⟨plan, hplan, fun hready => ⟨?_, ?_⟩⟩
  · intro e he hscope
    have hid : e.id ∈ m.elementIds := List.mem_map_of_mem he
    have hstays : ¬ GoesWith m (some scope) plan.actions e.id := by
      rintro ⟨k, id, -, -, -, -, hcascade⟩
      exact hm.not_element_of_relationship (Model.mem_relationshipIds_of_mem_cascade hcascade) hid
    have hspares := hchecked.spares_execute hready hmode (List.mem_append_left _ hid)
      (hout _ hscope) hstays
    exact ⟨hspares.element?.trans (hm.element?_of_mem he), hspares.folderOf?⟩
  · intro r hr hscope hstays
    have hid : r.id ∈ m.relationshipIds := List.mem_map_of_mem hr
    have hspares := hchecked.spares_execute hready hmode (List.mem_append_right _ hid)
      (hout _ hscope) hstays
    exact ⟨hspares.relationship?.trans (hm.relationship?_of_mem hr), hspares.folderOf?⟩

/-- Under a scope of one element, a plan that deletes it and renames what it has created under a
reference with the id of another. -/
theorem scope_bounds_execute_sample :
    let oracle : Oracle :=
      ⟨fun _ _ _ => true, fun _ => some .businessActor, fun _ => some .association⟩
    let operations : List Model.Operation := [
      .createElement .businessActor "Clerk",
      .createElement .businessActor "Client",
      .createElement .businessActor "Guard",
      .createRelationship .association "element-1" "element-2" "",
      .createRelationship .association "element-2" "element-3" ""]
    let m := operations.foldl Model.Operation.run (.new "Office")
    let scope : Scope := ⟨["element-1"]⟩
    let plan : ChangePlan := ⟨.v1, .ready, "", [], [
      .createElement "Actor" "Agent" (some "element-2") none,
      .renameElement "element-2" "Spy",
      .deleteElement "element-1"]⟩
    let after := (execute oracle ⟨.apply, true, true⟩ plan m).2
    m.WellFormed ∧ (validate oracle m (some scope) plan.toJson).isValid = true ∧
      (validate oracle m (some scope) plan.toJson).plan = some plan ∧
      (∃ e ∈ m.elements, e.id = "element-2" ∧ after.element? "element-2" = some e) ∧
      ∃ r ∈ m.relationships, r.id = "relationship-5" ∧
        after.relationship? "relationship-5" = some r := by
  intro oracle operations m scope plan after
  have hm : m.WellFormed := ((Model.new_wellFiled "Office").runAll operations).toWellFormed
  have hvalid : (validate oracle m (some scope) plan.toJson).isValid = true := by decide +kernel
  have hdecoded : (validate oracle m (some scope) plan.toJson).plan = some plan := by
    decide +kernel
  obtain ⟨decoded, hplan, h⟩ := scope_bounds_execute oracle scope plan.toJson m
    ⟨.apply, true, true⟩ hm rfl hvalid
  obtain rfl : plan = decoded := Option.some.inj (hdecoded.symm.trans hplan)
  obtain ⟨helements, hrelationships⟩ := h rfl
  obtain ⟨e, he, hid⟩ : ∃ e ∈ m.elements, e.id = "element-2" := by decide +kernel
  obtain ⟨r, hr, hrid⟩ : ∃ r ∈ m.relationships, r.id = "relationship-5" := by decide +kernel
  have hstays : ¬ GoesWith m (some scope) plan.actions "relationship-5" := by
    rintro ⟨k, id, hk, -, -, -, hcascade⟩
    obtain rfl : id = "element-1" := by simpa [plan] using List.mem_of_getElem? hk
    exact absurd hcascade (by decide +kernel)
  refine ⟨hm, hvalid, hdecoded, ⟨e, he, hid, ?_⟩, r, hr, hrid, ?_⟩
  · rw [← hid]
    exact (helements e he (by rw [hid]; decide)).1
  · rw [← hrid] at hstays ⊢
    exact (hrelationships r hr (by rw [hrid]; decide) hstays).1

end Execution

end ArchChange
