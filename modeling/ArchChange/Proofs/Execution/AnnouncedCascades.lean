import ArchChange.Proofs.Execution.Foretelling
/-!
How many relationships go with a deletion, as a preview announces it and as the run performs it.
The preview counts on the model as it was, and knows of no deletion before; so both agree just
where nothing of the cascade is gone by then and no new view is meant, or a new element is.
-/
namespace ArchChange

namespace Model

variable {m m' : Model} {id : String}

/-- What is no relationship comes without links. -/
theorem Gains.links_subset {kind : EntityKind} (h : Gains m id kind m')
    (hkind : ∀ type, kind ≠ .relationship type) : m'.links ⊆ m.links := by
  intro l hl
  obtain ⟨new, hlinks, hid⟩ := h.links
  have hrelationship : l.1 ∈ m'.relationshipIds := by
    rw [relationshipIds_eq_links]
    exact List.mem_map_of_mem hl
  rw [hlinks, List.mem_append] at hl
  refine hl.resolve_right ?_
  intro hnew
  obtain ⟨type, hk⟩ := h.wellFormed.mem_relationshipIds_iff.mp hrelationship
  rw [h.kind?, if_pos (hid l hnew)] at hk
  exact hkind type (Option.some.inj hk)

/-- What is deleted with its cascade takes as many relationships with it. -/
theorem Loses.length_relationships (hm : m.WellFormed)
    (h : Loses m (m.cascade id ++ [id]) m') (hid : id ∉ m.relationshipIds) :
    m.relationships.length = m'.relationships.length + (m.cascade id).length := by
  have hkept : m'.relationshipIds =
      m.relationshipIds.filter fun r => r ∉ m.cascade id ++ [id] := by
    rw [h.eq, relationshipIds_eq_links, links_eraseAll, relationshipIds_eq_links, List.filter_map]
    rfl
  have hgone : (m.relationshipIds.filter fun r => !decide (r ∉ m.cascade id ++ [id])).Perm
      (m.cascade id) := by
    have hnodup := hm.relationshipIds_nodup.filter fun r => !decide (r ∉ m.cascade id ++ [id])
    refine (List.perm_ext_iff_of_nodup hnodup (cascade_nodup m id)).mpr ?_
    intro r
    simp only [List.mem_filter, List.mem_append, List.mem_singleton, decide_not, Bool.not_not,
      decide_eq_true_eq]
    constructor
    · rintro ⟨hr, hcascade | rfl⟩
      · exact hcascade
      · exact absurd hr hid
    · intro hcascade
      exact ⟨mem_relationshipIds_of_mem_cascade hcascade, Or.inl hcascade⟩
  have hsplit := List.length_eq_length_filter_add (l := m.relationshipIds)
    fun r => decide (r ∉ m.cascade id ++ [id])
  rw [← hkept, hgone.length_eq] at hsplit
  simpa [relationshipIds] using hsplit

theorem cascade_eq_nil (h : m.attached id = []) : m.cascade id = [] := by
  rw [List.eq_nil_iff_forall_not_mem]
  intro r hr
  obtain ⟨b, -, hb⟩ := Relation.TransGen.tail'_iff.mp (mem_cascade.mp hr).2
  rw [Attached, h] at hb
  cases hb

end Model

namespace Execution

open Validation

/-- The preview of a deletion counts what there is to count: nothing for a new element, and else a
cascade of which nothing is gone from the store, and that of no view just created. -/
def CascadeStands (m store : Model) (earlier : List Action) (id : String) : Prop :=
  id ∈ elementRefs earlier ∨
    ∀ r ∈ m.cascade id, id ∉ viewRefs earlier ∧ r ∈ store.relationshipIds

variable {oracle : Oracle} {scope : Option Scope} {m : Model} {run run' : Run Model}
  {id live : String} {actions : List Action} {k : Nat} {c : EntityClass}

theorem Makes.links_subset {action : Action} (h : Makes run run' action)
    (hop : action.op ≠ .createRelationship) : run'.store.links ⊆ run.store.links := by
  have hloses : ∀ {l}, run.store.Loses l run'.store → run'.store.links ⊆ run.store.links := by
    intro l hl
    rw [hl.eq, Model.links_eraseAll]
    exact List.filter_subset_self _
  cases action with
  | createElement label name ref text =>
    obtain ⟨id, type, hgains, -⟩ := h
    exact hgains.links_subset (by simp)
  | createView name ref =>
    obtain ⟨id, hgains, -⟩ := h
    exact hgains.links_subset (by simp)
  | createRelationship label source target name => exact absurd rfl hop
  | deleteElement id =>
    obtain ⟨live, -, hl, -⟩ := h
    exact hloses hl
  | deleteRelationship id => exact hloses h.1
  | _ => exact h.1.links ▸ List.Subset.refl _

namespace Checked

variable (h : Checked oracle scope m actions)
  (hnone : ∀ action ∈ actions, action.op ≠ .createRelationship)

include h hnone

/-- Without new relationships all that are in the store are old ones that never were missing. -/
theorem old_of_mem_links (hk : k ≤ actions.length) {l : String × RelationshipType × String × String}
    (hl : l ∈ (runAfter oracle m actions k).store.links) :
    l ∈ m.links ∧ ¬ goneBy oracle m actions k l.1 := by
  induction k with
  | zero => exact ⟨hl, not_goneBy_zero l.1⟩
  | succ k ih =>
    have hstep : (runAfter oracle m actions (k + 1)).store.links ⊆
        (runAfter oracle m actions k).store.links := by
      rw [runAfter_succ hk]
      have haccounts : Accounts oracle (runAfter oracle m actions k) actions[k]
          (applyAction oracle actions[k]) :=
        accounts_applyAction (h.wellFormed_runAfter (Nat.le_of_lt hk)) actions[k]
      rcases haccounts with ⟨-, done, run', hrun, hmakes⟩ | ⟨-, error, hrun⟩
      · rw [hrun]
        exact hmakes.links_subset (hnone _ (List.getElem_mem hk))
      · rw [hrun]
        exact List.Subset.refl _
    obtain ⟨hold, hgone⟩ := ih (Nat.le_of_succ_le hk) (hstep hl)
    refine ⟨hold, ?_⟩
    rw [goneBy_succ]
    rintro (hbefore | ⟨-, hmissing⟩)
    · exact hgone hbefore
    · exact hmissing (Model.mem_entityIds_of_link hl)

theorem not_goneBy_of_mem_relationshipIds (hk : k ≤ actions.length) {r : String}
    (hr : r ∈ (runAfter oracle m actions k).store.relationshipIds) :
    r ∈ m.relationshipIds ∧ ¬ goneBy oracle m actions k r := by
  rw [Model.relationshipIds_eq_links] at hr
  obtain ⟨l, hl, rfl⟩ := List.mem_map.mp hr
  obtain ⟨hold, hgone⟩ := h.old_of_mem_links hnone hk hl
  rw [Model.relationshipIds_eq_links]
  exact ⟨List.mem_map_of_mem hold, hgone⟩

/-- Nothing is attached to what a reference stands for. -/
theorem cascade_eq_nil_of_ref (hk : k ≤ actions.length)
    (href : ((runAfter oracle m actions k).refs c).lookup id = some live)
    (hd : ¬ (tablesAfter oracle m scope actions k).isDeleted id) :
    (runAfter oracle m actions k).store.cascade live = [] := by
  have htracks := h.tracks hk
  refine Model.cascade_eq_nil ?_
  rw [List.eq_nil_iff_forall_not_mem]
  intro r hr
  obtain ⟨l, hl, rfl, hends⟩ := Model.attached_iff_links.mp hr
  obtain ⟨hold, hgone⟩ := h.old_of_mem_links hnone hk hl
  have hattached : m.Attached l.1 live := Model.attached_iff_links.mpr ⟨l, hold, rfl, hends⟩
  have hlive := (htracks.stands c id live href hd).2
    (List.mem_append_left _ (h.wellFormed.mem_endpointIds_of_attached hattached))
  obtain ⟨hs, ht⟩ := htracks.closed l hold hgone
  rcases hends with rfl | rfl
  · exact hs hlive
  · exact ht hlive

/-- Of the cascade of an old entity what is there still goes with it, and nothing else. -/
theorem mem_cascade_iff (hk : k ≤ actions.length) (r : String) :
    r ∈ (runAfter oracle m actions k).store.cascade id ↔
      r ∈ m.cascade id ∧ r ∈ (runAfter oracle m actions k).store.relationshipIds := by
  have htracks := h.tracks hk
  constructor
  · intro hr
    have hstore := Model.mem_relationshipIds_of_mem_cascade hr
    obtain ⟨hold, hgone⟩ := h.not_goneBy_of_mem_relationshipIds hnone hk hstore
    obtain ⟨hne, hpath⟩ := Model.mem_cascade.mp hr
    obtain ⟨-, -, hpath'⟩ := htracks.transGen h.wellFormed
      (Model.mem_entityIds_of_relationship hold) hgone hpath
    exact ⟨Model.mem_cascade.mpr ⟨hne, hpath'⟩, hstore⟩
  · rintro ⟨hr, hstore⟩
    obtain ⟨-, hgone⟩ := h.not_goneBy_of_mem_relationshipIds hnone hk hstore
    obtain ⟨hne, hpath⟩ := Model.mem_cascade.mp hr
    exact Model.mem_cascade.mpr ⟨hne, (htracks.transGen_store hgone hpath).2⟩

theorem length_cascade_eq_iff (hk : k ≤ actions.length) :
    (m.cascade id).length = ((runAfter oracle m actions k).store.cascade id).length ↔
      ∀ r ∈ m.cascade id, r ∈ (runAfter oracle m actions k).store.relationshipIds := by
  have hmem : ∀ r, r ∈ (runAfter oracle m actions k).store.cascade id ↔
      r ∈ m.cascade id ∧ r ∈ (runAfter oracle m actions k).store.relationshipIds :=
    h.mem_cascade_iff hnone hk
  have hsubperm := (Model.cascade_nodup (runAfter oracle m actions k).store id).subperm
    fun r hr => ((hmem r).mp hr).1
  constructor
  · intro hlength r hr
    have hperm := hsubperm.perm_of_length_le (Nat.le_of_eq hlength)
    exact ((hmem r).mp (hperm.mem_iff.mpr hr)).2
  · intro hall
    refine ((List.perm_ext_iff_of_nodup (Model.cascade_nodup m id)
      (Model.cascade_nodup _ id)).mpr ?_).length_eq
    intro r
    rw [hmem]
    exact ⟨fun hr => ⟨hr, hall r hr⟩, And.left⟩

/-- What a preview counts is what the run deletes just where the cascade stands. -/
theorem announced_eq_iff (hk : k ≤ actions.length)
    (hs : StandsFor m (tablesAfter oracle m scope actions k) (runAfter oracle m actions k)
      (goneBy oracle m actions k) id c live)
    (hd : ¬ (tablesAfter oracle m scope actions k).isDeleted id) :
    (if id ∈ elementRefs (actions.take k) then 0 else (m.cascade id).length) =
        ((runAfter oracle m actions k).store.cascade live).length ↔
      CascadeStands m (runAfter oracle m actions k).store (actions.take k) id := by
  have hagrees := h.agrees hk
  by_cases helement : id ∈ elementRefs (actions.take k)
  · rw [if_pos helement]
    refine iff_of_true ?_ (Or.inl helement)
    rcases hs.origin with href | ⟨rfl, hdeclares, -⟩
    · rw [h.cascade_eq_nil_of_ref hnone hk href hd, List.length_nil]
    · exact absurd (Or.inl ((hagrees.elementRefs live).mpr helement))
        (Tables.declares_iff.not.mp hdeclares)
  · rw [if_neg helement, CascadeStands, or_iff_right helement]
    rcases hs.origin with href | ⟨rfl, hdeclares, -⟩
    · have hview : id ∈ viewRefs (actions.take k) := by
        have hrefers := ((h.tracks hk).refers id c).mpr (by rw [href]; rfl)
        cases c with
        | element => exact absurd ((hagrees.elementRefs id).mp hrefers) helement
        | view => exact (hagrees.viewRefs id).mp hrefers
        | relationship => exact hrefers.elim
      rw [h.cascade_eq_nil_of_ref hnone hk href hd, List.length_nil, List.length_eq_zero_iff,
        List.eq_nil_iff_forall_not_mem]
      simp [hview]
    · have hview : live ∉ viewRefs (actions.take k) := by
        rw [hagrees.declares_iff] at hdeclares
        exact fun hv => hdeclares (Or.inr hv)
      rw [h.length_cascade_eq_iff hnone hk]
      simp [hview]

end Checked

/-- What is announced of a deletion. -/
theorem announce_deleteElement (oracle : Oracle) (m : Model) {earlier : List Action}
    (hlabels : ∀ action ∈ earlier, LabelKnown oracle action) (id : String) :
    (announce oracle m (.deleteElement id) (foretold oracle m earlier)).1 =
      .ok (.deleteElement ((foretold oracle m earlier).shown m id)
        (if id ∈ elementRefs earlier then 0 else (m.cascade id).length)) := by
  have hrefs := lookup_elementRefs_foretold oracle m hlabels id
  have hcascade : EntityLookup.cascade m id = m.cascade id := rfl
  simp only [announce, hcascade]
  by_cases he : id ∈ elementRefs earlier
  · rw [if_pos (hrefs.mpr he), if_pos he]
  · rw [if_neg (mt hrefs.mp he), if_neg he]

/-- The cascade that a preview announces is the one that the run performs just where it stands:
in a valid plan without new relationships every deletion of an element is applied and deletes as
many relationships as its outcome says, and the preview says the same number if and only if the
deletion is that of a new element, or of something whose cascade in the old model is all there
still and which is no new view. -/
theorem announced_cascade_iff (oracle : Oracle) (scope : Option Scope) (value : Json) (m : Model)
    (autoConnect : Bool) (hm : m.WellFormed)
    (hvalid : (validate oracle m scope value).isValid = true) :
    ∃ plan, (validate oracle m scope value).plan = some plan ∧ (plan.status = .ready →
      (∀ action ∈ plan.actions, action.op ≠ .createRelationship) →
      ∀ k id, plan.actions[k]? = some (.deleteElement id) →
        ∃ shown announced target performed,
          (preview oracle plan m).outcomes[k]? = some ⟨k, .deleteElement,
            .applied (.announced (.deleteElement shown announced)) none⟩ ∧
          (execute oracle ⟨.apply, false, autoConnect⟩ plan m).1.outcomes[k]? =
            some ⟨k, .deleteElement, .applied (.done (.deleted target performed)) none⟩ ∧
          (storeAfter oracle plan k m).relationships.length =
            (storeAfter oracle plan (k + 1) m).relationships.length + performed ∧
          (announced = performed ↔
            CascadeStands m (storeAfter oracle plan k m) (plan.actions.take k) id)) := by
  obtain ⟨plan, -, hplan, h⟩ := exists_checked_of_isValid hm hvalid
  refine ⟨plan, hplan, fun hready hnone k id haction => ?_⟩
  obtain ⟨hk, haction⟩ := List.getElem?_eq_some_iff.mp haction
  have hle := Nat.le_of_lt hk
  have haccepts := h.accepts hk
  rw [haction] at haccepts
  obtain ⟨c, live, hs, hc⟩ := (h.tracks hle).standsFor haccepts
  have hmem : live ∈ (runAfter oracle m plan.actions k).store.entityIds :=
    Model.mem_entityIds_of_class? hs.class?
  have hrun := run_deleteElement (h.wellFormed_runAfter hle) oracle hs.live? hmem
  have hnext : (runAfter oracle m plan.actions (k + 1)).store = (runAfter oracle m plan.actions
      k).store.eraseAll ((runAfter oracle m plan.actions k).store.cascade live ++ [live]) := by
    rw [runAfter_succ hk, haction, hrun]
  have hnot : live ∉ (runAfter oracle m plan.actions k).store.relationshipIds := by
    intro hr
    have hclass := (h.wellFormed_runAfter hle).class?_of_mem_relationshipIds hr
    exact hc (Option.some.inj (hs.class?.symm.trans hclass))
  have hlabels : ∀ action ∈ plan.actions.take k, LabelKnown oracle action := by
    intro action hmem
    exact h.known action (List.mem_of_mem_take hmem)
  refine ⟨(foretold oracle m (plan.actions.take k)).shown m id,
    if id ∈ elementRefs (plan.actions.take k) then 0 else (m.cascade id).length, live,
    ((runAfter oracle m plan.actions k).store.cascade live).length, ?_, ?_, ?_, ?_⟩
  · rw [getElem?_outcomes_preview oracle m hready hk, haction, announce_deleteElement oracle m
      hlabels]
    rfl
  · rw [getElem?_outcomes hready autoConnect hk, haction, hrun]
    rfl
  · rw [storeAfter_eq_runAfter hready, storeAfter_eq_runAfter hready]
    exact Model.Loses.length_relationships (h.wellFormed_runAfter hle)
      ⟨(h.wellFormed_runAfter hle).deletable_cascade hmem, hnext⟩ hnot
  · rw [storeAfter_eq_runAfter hready]
    exact h.announced_eq_iff hnone hle hs haccepts.1

/-- Of two elements that a relationship joins, the first goes with it, and the second alone; yet the
preview announces the relationship twice. -/
theorem announced_cascade_iff_sample :
    let oracle : Oracle :=
      ⟨fun _ _ _ => true, fun _ => some .businessActor, fun _ => some .association⟩
    let operations : List Model.Operation := [
      .createElement .businessActor "Clerk",
      .createElement .businessActor "Client",
      .createRelationship .association "element-1" "element-2" ""]
    let m := operations.foldl Model.Operation.run (.new "Office")
    let plan : ChangePlan := ⟨.v1, .ready, "", [], [
      .deleteElement "element-1",
      .deleteElement "element-2"]⟩
    m.WellFormed ∧ (validate oracle m none plan.toJson).isValid = true ∧
      (validate oracle m none plan.toJson).plan = some plan ∧
      (∃ shown target count,
        (preview oracle plan m).outcomes[0]? = some ⟨0, .deleteElement,
          .applied (.announced (.deleteElement shown count)) none⟩ ∧
        (execute oracle ⟨.apply, false, true⟩ plan m).1.outcomes[0]? = some ⟨0, .deleteElement,
          .applied (.done (.deleted target count)) none⟩) ∧
      ∃ shown announced target performed,
        (preview oracle plan m).outcomes[1]? = some ⟨1, .deleteElement,
          .applied (.announced (.deleteElement shown announced)) none⟩ ∧
        (execute oracle ⟨.apply, false, true⟩ plan m).1.outcomes[1]? = some ⟨1, .deleteElement,
          .applied (.done (.deleted target performed)) none⟩ ∧ announced ≠ performed := by
  intro oracle operations m plan
  have hm : m.WellFormed := ((Model.new_wellFiled "Office").runAll operations).toWellFormed
  have hvalid : (validate oracle m none plan.toJson).isValid = true := by decide +kernel
  have hdecoded : (validate oracle m none plan.toJson).plan = some plan := by decide +kernel
  obtain ⟨decoded, hplan, h⟩ := announced_cascade_iff oracle none plan.toJson m true hm hvalid
  obtain rfl : plan = decoded := Option.some.inj (hdecoded.symm.trans hplan)
  have hall := h rfl (by decide)
  obtain ⟨shown, announced, target, performed, hsaid, hdone, -, hiff⟩ := hall 0 "element-1" rfl
  have hstands : CascadeStands m (storeAfter oracle plan 0 m) [] "element-1" := by
    refine Or.inr fun r hr => ⟨by simp [viewRefs], ?_⟩
    exact Model.mem_relationshipIds_of_mem_cascade hr
  obtain rfl := hiff.mpr hstands
  obtain ⟨shown', announced', target', performed', hsaid', hdone', -, hiff'⟩ :=
    hall 1 "element-2" rfl
  refine ⟨hm, hvalid, hdecoded, ⟨shown, target, announced, hsaid, hdone⟩, shown', announced',
    target', performed', hsaid', hdone', mt hiff'.mp ?_⟩
  rintro (hnew | hcascade)
  · exact absurd hnew (by decide)
  · exact absurd (hcascade "relationship-3" (by decide +kernel)).2 (by decide +kernel)

/-- What a preview announces of a deletion need not be what the run does: here one relationship that
an earlier deletion takes, and one of an element whose id a new view bears as its reference. -/
theorem announced_cascade_miscounted :
    let oracle : Oracle :=
      ⟨fun _ _ _ => true, fun _ => some .businessActor, fun _ => some .association⟩
    let operations : List Model.Operation := [
      .createElement .businessActor "Clerk",
      .createElement .businessActor "Client",
      .createRelationship .association "element-1" "element-2" ""]
    let m := operations.foldl Model.Operation.run (.new "Office")
    let second : ChangePlan := ⟨.v1, .ready, "", [], [
      .deleteElement "element-1",
      .deleteElement "element-2"]⟩
    let shadowed : ChangePlan := ⟨.v1, .ready, "", [], [
      .createView "Desk" (some "element-1"),
      .deleteElement "element-1"]⟩
    ((validate oracle m none second.toJson).isValid = true ∧
      (preview oracle second m).outcomes[1]? = some ⟨1, .deleteElement, .applied (.announced
        (.deleteElement (.live ⟨"element-2", "Client", .element .businessActor⟩) 1)) none⟩ ∧
      (execute oracle ⟨.apply, false, false⟩ second m).1.outcomes[1]? = some ⟨1, .deleteElement,
        .applied (.done (.deleted "element-2" 0)) none⟩) ∧
    (validate oracle m none shadowed.toJson).isValid = true ∧
      (preview oracle shadowed m).outcomes[1]? = some ⟨1, .deleteElement, .applied (.announced
        (.deleteElement (.newView "Desk" "element-1") 1)) none⟩ ∧
      (execute oracle ⟨.apply, false, false⟩ shadowed m).1.outcomes[1]? = some ⟨1, .deleteElement,
        .applied (.done (.deleted "view-4" 0)) none⟩ := by
  decide +kernel

end Execution

end ArchChange
