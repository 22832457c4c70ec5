import ArchChange.Proofs.Execution.Slots
/-!
Where an entity goes on a view, as a preview announces it and as the run places it. Both agree just
where as many slots are taken on views that are written alike as on the view that is meant; and
that is so where references are not named like views of the model and ids are not used twice.
-/
namespace ArchChange

/-- An id that is gained has been allocated. -/
theorem Model.Gains.number {m m' : Model} {id : String} {kind : EntityKind} {count : Nat}
    (h : m.Gains id kind m') (hgrown : Allocates count m m') :
    ∃ stem n, id = numbered stem n ∧ m.nextId < n ∧ n ≤ m'.nextId := by
  have hfresh : id ∉ m.entityIds := fun hmem => h.fresh (mem_ids_of_mem_entityIds hmem)
  exact (hgrown.entityIds id h.mem).resolve_left hfresh

namespace Execution

open Validation

variable {oracle : Oracle} {scope : Option Scope} {m : Model} {run run' : Run Model}
  {actions : List Action} {j k : Nat}

/-- What an action does to the references to views: it leaves them, or adds one to a new view. -/
theorem Makes.viewRefs {action : Action} (h : Makes run run' action) :
    run'.viewRefs = run.viewRefs ∨ ∃ ref id, action.viewRef? = some ref ∧
      run.store.Gains id .view run'.store ∧ run'.viewRefs = (ref, id) :: run.viewRefs := by
  cases action with
  | createElement label name ref text =>
    obtain ⟨id, type, -, -, hviews⟩ := h
    exact Or.inl hviews
  | createView name ref =>
    obtain ⟨id, hgains, -, hviews⟩ := h
    cases ref with
    | none => exact Or.inl hviews
    | some ref => exact Or.inr ⟨ref, id, rfl, hgains, hviews⟩
  | createRelationship label source target name =>
    obtain ⟨id, type, -, hrefs⟩ := h
    exact Or.inl hrefs.viewRefs
  | deleteElement id =>
    obtain ⟨live, -, -, hrefs⟩ := h
    exact Or.inl hrefs.viewRefs
  | _ => exact Or.inl h.2.viewRefs

/-- References stand for views of their own, whose ids have been allocated since the model was
as it was. -/
structure Minted (m : Model) (run : Run Model) : Prop where
  numbered : ∀ ref id, run.viewRefs.lookup ref = some id →
    ∃ stem n, id = Model.numbered stem n ∧ m.nextId < n ∧ n ≤ run.store.nextId
  injective : ∀ ref ref' id, run.viewRefs.lookup ref = some id →
    run.viewRefs.lookup ref' = some id → ref = ref'

theorem Minted.start (m : Model) : Minted m (.start m) :=
  ⟨by simp [Run.start], by simp [Run.start]⟩

theorem Minted.of_viewRefs_eq (h : Minted m run) (hgrown : run.store.nextId ≤ run'.store.nextId)
    (hsame : run'.viewRefs = run.viewRefs) : Minted m run' := by
  constructor
  · intro ref id hl
    rw [hsame] at hl
    obtain ⟨stem, n, hid, hlt, hle⟩ := h.numbered ref id hl
    exact ⟨stem, n, hid, hlt, Nat.le_trans hle hgrown⟩
  · rw [hsame]
    exact h.injective

/-- Numbers grow, so a new view has the id of no other. -/
theorem Minted.declare (h : Minted m run) (hstart : m.nextId ≤ run.store.nextId)
    {count : Nat} (hgrown : Model.Allocates count run.store run'.store) {new id : String}
    (hgains : run.store.Gains id .view run'.store)
    (hnew : run'.viewRefs = (new, id) :: run.viewRefs) : Minted m run' := by
  obtain ⟨stem, n, hid, hlt, hle⟩ := hgains.number hgrown
  have hnot : ∀ ref, run.viewRefs.lookup ref ≠ some id := by
    intro ref hl
    obtain ⟨stem', n', hid', -, hle'⟩ := h.numbered ref id hl
    have hn := Model.number_eq (hid.symm.trans hid')
    omega
  have hlookup : ∀ ref, run'.viewRefs.lookup ref =
      if new = ref then some id else run.viewRefs.lookup ref := by
    intro ref
    rw [hnew]
    simpa [declared] using lookup_declared_append (some new) id ref run.viewRefs
  constructor
  · intro ref x hl
    rw [hlookup] at hl
    split at hl
    · cases hl
      exact ⟨stem, n, hid, Nat.lt_of_le_of_lt hstart hlt, hle⟩
    · obtain ⟨stem', n', hid', hlt', hle'⟩ := h.numbered ref x hl
      exact ⟨stem', n', hid', hlt', Nat.le_trans hle' hgrown.nextId_le⟩
  · intro ref ref' x hl hl'
    rw [hlookup] at hl hl'
    split at hl
    · next heq =>
      cases hl
      split at hl'
      · next heq' => exact heq.symm.trans heq'
      · exact absurd hl' (hnot ref')
    · split at hl'
      · cases hl'
        exact absurd hl (hnot ref)
      · exact h.injective ref ref' x hl hl'

namespace Checked

variable (h : Checked oracle scope m actions)

include h

theorem viewRefs_runAfter_succ (hk : k < actions.length) :
    (runAfter oracle m actions (k + 1)).viewRefs = (runAfter oracle m actions k).viewRefs ∨
      ∃ ref id, actions[k].viewRef? = some ref ∧
        (runAfter oracle m actions k).store.Gains id .view
          (runAfter oracle m actions (k + 1)).store ∧
        (runAfter oracle m actions (k + 1)).viewRefs =
          (ref, id) :: (runAfter oracle m actions k).viewRefs := by
  rw [runAfter_succ hk]
  rcases accounts_applyAction (h.wellFormed_runAfter (Nat.le_of_lt hk)) actions[k] with
    ⟨-, done, run', hrun, hmakes⟩ | ⟨-, error, hrun⟩
  · rw [hrun]
    exact hmakes.viewRefs
  · rw [hrun]
    exact Or.inl rfl

theorem minted (hroom : m.reach + actions.length < Model.counterSize) (hk : k ≤ actions.length) :
    Minted m (runAfter oracle m actions k) := by
  induction k with
  | zero => exact .start m
  | succ k ih =>
    have hbefore := ih (Nat.le_of_succ_le hk)
    have hstart : Model.Allocates k m (runAfter oracle m actions k).store :=
      allocates_runAfter hroom (Nat.le_of_succ_le hk)
    have hgrown : Model.Allocates 1 (runAfter oracle m actions k).store
        (runAfter oracle m actions (k + 1)).store := allocates_runAfter_succ hroom hk
    rcases h.viewRefs_runAfter_succ hk with hsame | ⟨ref, id, -, hgains, hnew⟩
    · exact hbefore.of_viewRefs_eq hgrown.nextId_le hsame
    · exact hbefore.declare hstart.nextId_le hgrown hgains hnew

/-- A reference is not declared again, so it stands for the same view ever after. -/
theorem lookup_viewRefs_mono (hjk : j ≤ k) (hk : k ≤ actions.length) {ref id : String}
    (hl : (runAfter oracle m actions j).viewRefs.lookup ref = some id) :
    (runAfter oracle m actions k).viewRefs.lookup ref = some id := by
  induction hjk with
  | refl => exact hl
  | step hjk ih =>
    next k =>
    have hbefore := ih (Nat.le_of_succ_le hk)
    rcases h.viewRefs_runAfter_succ hk with hsame | ⟨new, x, hdeclares, -, hnew⟩
    · rw [hsame]
      exact hbefore
    · have hne : ref ≠ new := by
        rintro rfl
        have hrefers := ((h.tracks (Nat.le_of_succ_le hk)).refers ref .view).mpr
          (Option.isSome_of_eq_some hbefore)
        have haccepts := h.accepts hk
        cases haction : actions[k] with
        | createView name declared =>
          rw [haction] at haccepts hdeclares
          exact haccepts ref hdeclares (Tables.declares_iff.mpr (Or.inr hrefers))
        | _ => simp [haction, Action.viewRef?] at hdeclares
      have hbeq : (ref == new) = false := by simpa using hne
      rw [hnew, List.lookup_cons, hbeq]
      exact hbefore

/-- The view of an accepted placement is that of a reference, or one of the model under its id. -/
theorem origin_liveView {view v element : String} {x y width height : Option Int}
    (hk : k < actions.length) (haction : actions[k] = .addToView view element x y width height)
    (hv : (runAfter oracle m actions k).liveView? view = some v) :
    (runAfter oracle m actions k).viewRefs.lookup view = some v ∨
      (view ∉ viewRefs (actions.take k) ∧ view ∈ m.viewIds ∧ v = view) := by
  have htracks := h.tracks (Nat.le_of_lt hk)
  have haccepts := h.accepts hk
  rw [haction] at haccepts
  obtain ⟨⟨-, hknown⟩, -⟩ := haccepts
  unfold Run.liveView? at hv
  rcases hknown with href | ⟨hdeclares, e, he, hkind⟩
  · obtain ⟨live, hlive⟩ := Option.isSome_iff_exists.mp ((htracks.refers view .view).mp href)
    have hlookup : (runAfter oracle m actions k).viewRefs.lookup view = some live := hlive
    rw [hlookup, Option.some_or] at hv
    exact Or.inl (hlookup.trans hv)
  · rw [Tables.declares_iff, not_or] at hdeclares
    refine Or.inr ⟨mt ((h.agrees (Nat.le_of_lt hk)).viewRefs view).mpr hdeclares.2, ?_, ?_⟩
    · refine Model.kind?_eq_view ?_
      have hentity : m.entity? view = some e := he
      rw [Model.kind?, hentity, Option.map_some, hkind]
    · rw [htracks.viewRefs_lookup_eq_none hdeclares.2, Option.none_or] at hv
      obtain ⟨e', hfilter, rfl⟩ := Option.map_eq_some_iff.mp hv
      exact Model.entity?_id (Option.filter_eq_some_iff.mp hfilter).1

/-- Where references are not named like views of the model and ids are not used twice, a view is
written in one way, and what is written so means one view. -/
theorem spelling_iff (hnumbered : m.Numbered)
    (hroom : m.reach + actions.length < Model.counterSize) {view v element : String}
    {x y width height : Option Int} (hk : k < actions.length)
    (hrefs : ∀ ref ∈ viewRefs (actions.take k), ref ∉ m.viewIds)
    (haction : actions[k] = .addToView view element x y width height)
    (hv : (runAfter oracle m actions k).liveView? view = some v) {p : String × String}
    (hp : p ∈ slotsTaken oracle m actions k) : p.1 = view ↔ p.2 = v := by
  have hle := Nat.le_of_lt hk
  obtain ⟨j, element', x', y', width', height', hj, haction', hp⟩ :=
    exists_of_mem_slotsTaken hle hp
  obtain ⟨written, w⟩ := p
  have hminted := h.minted hroom hle
  have hview := h.origin_liveView hk haction hv
  -- what the earlier placement has met, seen from the later one
  have hwritten : (runAfter oracle m actions k).viewRefs.lookup written = some w ∨
      (written ∈ m.viewIds ∧ w = written) := by
    rcases h.origin_liveView (Nat.lt_trans hj hk) haction' hp with href | ⟨-, hmem, heq⟩
    · exact Or.inl (h.lookup_viewRefs_mono (Nat.le_of_lt hj) hle href)
    · exact Or.inr ⟨hmem, heq⟩
  have hold : ∀ ref id, (runAfter oracle m actions k).viewRefs.lookup ref = some id →
      ref ∉ m.viewIds ∧ id ∉ m.viewIds := by
    intro ref id hl
    refine ⟨hrefs ref ?_, ?_⟩
    · rw [← (h.agrees hle).viewRefs]
      exact ((h.tracks hle).refers ref .view).mpr (Option.isSome_of_eq_some hl)
    · intro hmem
      obtain ⟨stem, n, hid, hlt, -⟩ := hminted.numbered ref id hl
      obtain ⟨stem', n', hid', hle'⟩ := hnumbered id (List.mem_append_right _ hmem)
      have hn := Model.number_eq (hid.symm.trans hid')
      omega
  rcases hwritten with hw | ⟨hmem, rfl⟩
  · rcases hview with hl | ⟨-, hlive, rfl⟩
    · constructor
      · rintro rfl
        exact Option.some.inj (hw.symm.trans hl)
      · rintro rfl
        exact hminted.injective _ _ _ hw hl
    · refine iff_of_false ?_ ?_
      · rintro rfl
        exact (hold _ _ hw).1 hlive
      · rintro rfl
        exact (hold _ _ hw).2 hlive
  · rcases hview with hl | ⟨-, hlive, rfl⟩
    · refine iff_of_false ?_ ?_
      · rintro rfl
        exact (hold _ _ hl).1 hmem
      · rintro rfl
        exact (hold _ _ hl).2 hmem
    · exact Iff.rfl

end Checked

/-- A preview announces the position that apply uses just where it counts the same slots: in a valid
plan every placement is made, on a visual that has the bounds of its outcome; the preview announces
bounds of the same size, and the same bounds if and only if the plan gives both coordinates, or as
many slots were taken before on views written like this one as on the view that is meant. That is so
where ids are not used twice, the counter has room for new ones, and no reference to a view is named
like a view of the model. -/
theorem announced_position_iff (oracle : Oracle) (scope : Option Scope) (value : Json) (m : Model)
    (autoConnect : Bool) (hm : m.WellFormed)
    (hvalid : (validate oracle m scope value).isValid = true) :
    ∃ plan, (validate oracle m scope value).plan = some plan ∧ (plan.status = .ready →
      ∀ k view element x y width height,
        plan.actions[k]? = some (.addToView view element x y width height) →
        ∃ shownElement shownView announced e v made visual drawn,
          (preview oracle plan m).outcomes[k]? = some ⟨k, .addToView,
            .applied (.announced (.place shownElement shownView announced)) none⟩ ∧
          (execute oracle ⟨.apply, false, autoConnect⟩ plan m).1.outcomes[k]? =
            some ⟨k, .addToView, .applied (.done (.placed e v made)) (some visual)⟩ ∧
          (storeAfter oracle plan (k + 1) m).view? v = some drawn ∧
          ⟨visual, e, made⟩ ∈ drawn.children ∧
          (announced.width = made.width ∧ announced.height = made.height) ∧
          (announced = made ↔ (x.isSome ∧ y.isSome) ∨
            ((slotsTaken oracle m plan.actions k).map Prod.fst).count view =
              ((slotsTaken oracle m plan.actions k).map Prod.snd).count v) ∧
          (m.Numbered → m.HasRoom plan.actions.length →
            (∀ ref ∈ viewRefs (plan.actions.take k), ref ∉ m.viewIds) → announced = made)) := by
  obtain ⟨plan, -, hplan, h⟩ := exists_checked_of_isValid hm hvalid
  refine ⟨plan, hplan, fun hready k view element x y width height haction => ?_⟩
  obtain ⟨hk, haction⟩ := List.getElem?_eq_some_iff.mp haction
  have hle := Nat.le_of_lt hk
  obtain ⟨⟨v, hv, hvmem⟩, e, he, hemem⟩ := h.finds_addToView hk haction
  have hrun := run_addToView oracle hv he ⟨hemem, hvmem⟩ x y width height
  set request : PlaceRequest := ⟨x, y, width, height⟩ with hrequest
  set said := foretold oracle m (plan.actions.take k) with hsaid
  set before := runAfter oracle m plan.actions k with hbefore
  have hiff : (said.grid.boundsFor view request).1 = (before.grid.boundsFor v request).1 ↔
      (x.isSome ∧ y.isSome) ∨ ((slotsTaken oracle m plan.actions k).map Prod.fst).count view =
        ((slotsTaken oracle m plan.actions k).map Prod.snd).count v := by
    rw [Grid.boundsFor_eq_iff, hsaid, next_foretold, hbefore, h.next_runAfter hle,
      h.map_fst_slotsTaken hle]
  obtain ⟨drawn, hdrawn, hvisual⟩ :=
    Model.exists_view_addToView (before.grid.boundsFor v request).1 hemem hvmem
  refine ⟨said.shown m element, said.shown m view, (said.grid.boundsFor view request).1, e, v,
    (before.grid.boundsFor v request).1, (before.store.allocate "visual").1, drawn, ?_, ?_, ?_,
    hvisual, ?_, hiff, ?_⟩
  · rw [getElem?_outcomes_preview oracle m hready hk, haction]
    rfl
  · rw [getElem?_outcomes hready autoConnect hk, haction, hrun]
    rfl
  · rw [storeAfter_eq_runAfter hready, runAfter_succ hk, haction, hrun]
    exact hdrawn
  · exact Grid.size_boundsFor said.grid before.grid view v request
  · intro hnumbered hroom hrefs
    refine hiff.mpr (Or.inr ?_)
    have hspelling : ∀ p ∈ slotsTaken oracle m plan.actions k, p.1 = view ↔ p.2 = v :=
      fun p hp => h.spelling_iff hnumbered hroom.reach_lt hk hrefs haction hv hp
    simp only [List.count, List.countP_map]
    refine List.countP_congr fun p hp => ?_
    simpa using hspelling p hp

/-- On a view that is meant by its id the second slot is announced and taken; once a new view bears
that id as its reference, a third slot is announced, and the first one of the new view is taken. -/
theorem announced_position_iff_sample :
    let oracle : Oracle :=
      ⟨fun _ _ _ => true, fun _ => some .businessActor, fun _ => some .association⟩
    let operations : List Model.Operation := [
      .createElement .businessActor "Clerk",
      .createView "Desk"]
    let m := operations.foldl Model.Operation.run (.new "Office")
    let plan : ChangePlan := ⟨.v1, .ready, "", [], [
      .addToView "view-2" "element-1" none none none none,
      .addToView "view-2" "element-1" none none none none,
      .createView "Counter" (some "view-2"),
      .addToView "view-2" "element-1" none none (some 90) none]⟩
    m.WellFormed ∧ m.Numbered ∧ (validate oracle m none plan.toJson).isValid = true ∧
      (validate oracle m none plan.toJson).plan = some plan ∧
      (∃ shownElement shownView e v bounds visual,
        (preview oracle plan m).outcomes[1]? = some ⟨1, .addToView,
          .applied (.announced (.place shownElement shownView bounds)) none⟩ ∧
        (execute oracle ⟨.apply, false, true⟩ plan m).1.outcomes[1]? = some ⟨1, .addToView,
          .applied (.done (.placed e v bounds)) (some visual)⟩) ∧
      ∃ shownElement shownView announced e v made visual,
        (preview oracle plan m).outcomes[3]? = some ⟨3, .addToView,
          .applied (.announced (.place shownElement shownView announced)) none⟩ ∧
        (execute oracle ⟨.apply, false, true⟩ plan m).1.outcomes[3]? = some ⟨3, .addToView,
          .applied (.done (.placed e v made)) (some visual)⟩ ∧ announced ≠ made := by
  intro oracle operations m plan
  have hm : m.WellFormed := ((Model.new_wellFiled "Office").runAll operations).toWellFormed
  have hnew : (Model.new "Office").HasRoom (operations.map Model.Operation.cost).sum := by
    decide +kernel
  have hnumbered : m.Numbered :=
    (Model.allocates_foldl hnew.reach_lt).numbered (Model.numbered_new "Office")
  have hroom : m.HasRoom plan.actions.length := by decide +kernel
  have hvalid : (validate oracle m none plan.toJson).isValid = true := by decide +kernel
  have hdecoded : (validate oracle m none plan.toJson).plan = some plan := by decide +kernel
  obtain ⟨decoded, hplan, h⟩ := announced_position_iff oracle none plan.toJson m true hm hvalid
  obtain rfl : plan = decoded := Option.some.inj (hdecoded.symm.trans hplan)
  have hall := h rfl
  obtain ⟨shownElement, shownView, bounds, e, v, made, visual, -, hsaid, hdone, -, -, -, -,
    hsame⟩ := hall 1 "view-2" "element-1" none none none none rfl
  obtain rfl := hsame hnumbered hroom (by decide)
  obtain ⟨shownElement', shownView', announced', e', v', made', visual', -, hsaid', hdone', -, -, -,
    hiff, -⟩ := hall 3 "view-2" "element-1" none none (some 90) none rfl
  have hplaced : (execute oracle ⟨.apply, false, true⟩ plan m).1.outcomes[3]? =
      some ⟨3, .addToView, .applied (.done (.placed "element-1" "view-5" ⟨30, 30, 90, 55⟩))
        (some "visual-6")⟩ := by
    decide +kernel
  cases hdone'.symm.trans hplaced
  have hcounts : ¬ ((slotsTaken oracle m plan.actions 3).map Prod.fst).count "view-2" =
      ((slotsTaken oracle m plan.actions 3).map Prod.snd).count "view-5" := by decide +kernel
  refine ⟨hm, hnumbered, hvalid, hdecoded, ⟨shownElement, shownView, e, v, bounds, visual, hsaid,
    hdone⟩, shownElement', shownView', announced', _, _, _, _, hsaid', hdone', ?_⟩
  exact mt hiff.mp (not_or.mpr ⟨by decide, hcounts⟩)

/-- What a preview announces need not be where the run puts it: here on a new view that bears the id
of a view already placed on as its reference, and on a new view that gets the id of one deleted. -/
theorem announced_position_misplaced :
    let oracle : Oracle :=
      ⟨fun _ _ _ => true, fun _ => some .businessActor, fun _ => some .association⟩
    let operations : List Model.Operation := [
      .createElement .businessActor "Clerk",
      .createView "Desk"]
    let m := operations.foldl Model.Operation.run (.new "Office")
    let stale : Model := { m with nextId := 0 }
    let shadowed : ChangePlan := ⟨.v1, .ready, "", [], [
      .addToView "view-2" "element-1" none none none none,
      .createView "Counter" (some "view-2"),
      .addToView "view-2" "element-1" none none none none]⟩
    let reborn : ChangePlan := ⟨.v1, .ready, "", [], [
      .addToView "view-2" "element-1" none none none none,
      .deleteElement "view-2",
      .createView "Counter" (some "counter"),
      .addToView "counter" "element-1" none none none none]⟩
    let clerk : Shown := .live ⟨"element-1", "Clerk", .element .businessActor⟩
    (m.WellFormed ∧ (validate oracle m none shadowed.toJson).isValid = true ∧
      (preview oracle shadowed m).outcomes[2]? = some ⟨2, .addToView, .applied (.announced
        (.place clerk (.newView "Counter" "view-2") ⟨190, 30, 120, 55⟩)) none⟩ ∧
      (execute oracle ⟨.apply, false, false⟩ shadowed m).1.outcomes[2]? = some ⟨2, .addToView,
        .applied (.done (.placed "element-1" "view-4" ⟨30, 30, 120, 55⟩)) (some "visual-5")⟩) ∧
    stale.WellFormed ∧ (validate oracle stale none reborn.toJson).isValid = true ∧
      (preview oracle reborn stale).outcomes[3]? = some ⟨3, .addToView, .applied (.announced
        (.place clerk (.newView "Counter" "counter") ⟨30, 30, 120, 55⟩)) none⟩ ∧
      (execute oracle ⟨.apply, false, false⟩ reborn stale).1.outcomes[3]? = some ⟨3, .addToView,
        .applied (.done (.placed "element-1" "view-2" ⟨190, 30, 120, 55⟩)) (some "visual-3")⟩ := by
  intro oracle operations m stale shadowed reborn clerk
  have hm : m.WellFormed := ((Model.new_wellFiled "Office").runAll operations).toWellFormed
  have hstale : stale.WellFormed :=
    ⟨hm.ids_nodup, hm.endpoints, hm.acyclic, hm.views, hm.members⟩
  refine ⟨⟨hm, ?_⟩, hstale, ?_⟩
  · decide +kernel
  · decide +kernel

end Execution

end ArchChange
