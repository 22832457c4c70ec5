import ArchChange.Proofs.Execution.Foretelling
import ArchChange.Proofs.Execution.Places
/-!
The slots of the grid that a plan takes. The grid of a run counts the slots taken on each live
view, the grid of a preview those taken on each view as it is written; so where an entity is put,
and where it is said to go, comes down to counting.
-/
namespace ArchChange

/-- The view, as it is written, on which an action takes the next slot. -/
def Action.slotView? : Action → Option String
  | .addToView view _ x y _ _ => if x.isSome ∧ y.isSome then none else some view
  | _ => none

namespace Execution

open Validation

namespace Grid

theorem position_injective : Function.Injective position := by
  intro slot slot' h
  simp only [position, origin, stepX, stepY, columns, Prod.mk.injEq] at h
  omega

variable (g g' : Grid) (view view' other : String) (r : PlaceRequest)

/-- Without both coordinates a place is that of the next slot. -/
theorem boundsFor_of_auto {r : PlaceRequest} (h : ¬ (r.x.isSome ∧ r.y.isSome)) :
    g.boundsFor view r = (⟨(position (g.next view)).1, (position (g.next view)).2,
      r.width.getD defaultWidth, r.height.getD defaultHeight⟩, .auto (g.next view)) := by
  obtain ⟨x, y, width, height⟩ := r
  cases x with
  | none => rfl
  | some x =>
    cases y with
    | none => rfl
    | some y => simp at h

theorem boundsFor_of_explicit {r : PlaceRequest} (h : r.x.isSome ∧ r.y.isSome) :
    (g.boundsFor view r).2 = .explicit ∧ (g.boundsFor view r).1 = (g'.boundsFor view' r).1 := by
  obtain ⟨x, y, width, height⟩ := r
  obtain ⟨hx, hy⟩ := h
  obtain ⟨x, rfl⟩ := Option.isSome_iff_exists.mp hx
  obtain ⟨y, rfl⟩ := Option.isSome_iff_exists.mp hy
  exact ⟨rfl, rfl⟩

/-- The size of a place has nothing to do with the grid. -/
theorem size_boundsFor : (g.boundsFor view r).1.width = (g'.boundsFor view' r).1.width ∧
    (g.boundsFor view r).1.height = (g'.boundsFor view' r).1.height := by
  by_cases h : r.x.isSome ∧ r.y.isSome
  · rw [(boundsFor_of_explicit g g' view view' h).2]
    exact ⟨rfl, rfl⟩
  · rw [boundsFor_of_auto g view h, boundsFor_of_auto g' view' h]
    exact ⟨rfl, rfl⟩

/-- Two places are the same just where they are given, or the slots are. -/
theorem boundsFor_eq_iff : (g.boundsFor view r).1 = (g'.boundsFor view' r).1 ↔
    (r.x.isSome ∧ r.y.isSome) ∨ g.next view = g'.next view' := by
  by_cases h : r.x.isSome ∧ r.y.isSome
  · exact iff_of_true (boundsFor_of_explicit g g' view view' h).2 (Or.inl h)
  · rw [boundsFor_of_auto g view h, boundsFor_of_auto g' view' h, or_iff_right h]
    constructor
    · intro heq
      simp only [Bounds.mk.injEq] at heq
      exact position_injective (Prod.ext heq.1 heq.2.1)
    · intro heq
      rw [heq]

theorem next_commit_boundsFor : (g.commit view (g.boundsFor view r).2).next other =
    g.next other + if (r.x.isSome ∧ r.y.isSome) ∨ view ≠ other then 0 else 1 := by
  by_cases h : r.x.isSome ∧ r.y.isSome
  · rw [(boundsFor_of_explicit g g view view h).1, commit_explicit, if_pos (Or.inl h), Nat.add_zero]
  · rw [boundsFor_of_auto g view h, next_commit_auto]
    by_cases ho : other = view
    · simp [h, ho]
    · simp [ho, Ne.symm ho]

end Grid

section

variable {σ : Type} [EntityLookup σ] (oracle : Oracle) (store : σ) (view : String)

theorem next_announce (action : Action) (s : PreviewState) :
    (announce oracle store action s).2.grid.next view =
      s.grid.next view + action.slotView?.toList.count view := by
  cases action with
  | createElement label name ref text =>
    cases ref <;> cases h : oracle.elementType? label <;>
      simp [announce, h, PreviewState.declareElement, Action.slotView?]
  | createRelationship label source target name =>
    cases h : oracle.relationshipType? label <;> simp [announce, h, Action.slotView?]
  | createView name ref => cases ref <;> simp [announce, PreviewState.declareView, Action.slotView?]
  | addToView written element x y width height =>
    simp only [announce, Grid.next_commit_boundsFor, Action.slotView?]
    by_cases h : x.isSome ∧ y.isSome
    · simp [h]
    · by_cases hv : written = view
      · simp [h, hv]
      · simp [h, hv]
  | _ => simp [announce, Action.slotView?]

/-- The grid of a preview counts the views as they are written. -/
theorem next_foretold (actions : List Action) : (foretold oracle store actions).grid.next view =
    (actions.filterMap Action.slotView?).count view := by
  induction actions using List.reverseRecOn with
  | nil => rfl
  | append_singleton actions action ih =>
    rw [foretold_append, next_announce, ih, List.filterMap_append, List.count_append]
    cases h : action.slotView? <;> simp [h]

end

/-- The slots that the first `k` actions take: for each the view as it is written and the live
view that is meant. -/
def slotsTaken (oracle : Oracle) (m : Model) (actions : List Action) :
    Nat → List (String × String)
  | 0 => []
  | k + 1 => slotsTaken oracle m actions k ++ ((actions[k]?.bind Action.slotView?).bind fun view =>
      ((runAfter oracle m actions k).liveView? view).map (view, ·)).toList

variable {oracle : Oracle} {scope : Option Scope} {m : Model} {actions : List Action} {k : Nat}

/-- A slot is taken by a placement that has found its view. -/
theorem exists_of_mem_slotsTaken (hk : k ≤ actions.length) {p : String × String}
    (hp : p ∈ slotsTaken oracle m actions k) : ∃ j element x y width height, ∃ hj : j < k,
      actions[j] = .addToView p.1 element x y width height ∧
      (runAfter oracle m actions j).liveView? p.1 = some p.2 := by
  induction k with
  | zero => cases hp
  | succ k ih =>
    rw [slotsTaken, List.mem_append] at hp
    rcases hp with hp | hp
    · obtain ⟨j, element, x, y, width, height, hj, hfound⟩ := ih (Nat.le_of_succ_le hk) hp
      exact ⟨j, element, x, y, width, height, Nat.lt_succ_of_lt hj, hfound⟩
    · rw [List.getElem?_eq_getElem hk, Option.bind_some, Option.mem_toList,
        Option.bind_eq_some_iff] at hp
      obtain ⟨view, hslot, hmap⟩ := hp
      obtain ⟨v, hv, rfl⟩ := Option.map_eq_some_iff.mp hmap
      cases haction : actions[k] with
      | addToView written element x y width height =>
        rw [haction] at hslot
        obtain ⟨-, rfl⟩ : ¬ (x.isSome ∧ y.isSome) ∧ written = view := by
          simpa [Action.slotView?] using hslot
        exact ⟨k, element, x, y, width, height, Nat.lt_succ_self k, haction, hv⟩
      | _ => simp [haction, Action.slotView?] at hslot

namespace Checked

variable (h : Checked oracle scope m actions)

include h

/-- A placement that was accepted finds its view and its element. -/
theorem finds_addToView {view element : String} {x y width height : Option Int}
    (hk : k < actions.length) (haction : actions[k] = .addToView view element x y width height) :
    (∃ v, (runAfter oracle m actions k).liveView? view = some v ∧
      v ∈ (runAfter oracle m actions k).store.viewIds) ∧
    ∃ e, (runAfter oracle m actions k).live? element = some e ∧
      e ∈ (runAfter oracle m actions k).store.elementIds := by
  have hfeasible := ((h.tracks (Nat.le_of_lt hk)).feasible_iff (h.accepts hk)
    (h.labelKnown hk)).mpr
  rw [haction] at hfeasible
  exact hfeasible id

theorem map_fst_slotsTaken (hk : k ≤ actions.length) :
    (slotsTaken oracle m actions k).map Prod.fst =
      (actions.take k).filterMap Action.slotView? := by
  induction k with
  | zero => rfl
  | succ k ih =>
    rw [slotsTaken, List.map_append, ih (Nat.le_of_succ_le hk),
      List.take_succ_eq_append_getElem hk, List.filterMap_append, List.getElem?_eq_getElem hk]
    congr 1
    cases haction : actions[k] with
    | addToView view element x y width height =>
      obtain ⟨⟨v, hv, -⟩, -⟩ := h.finds_addToView hk haction
      by_cases hxy : x.isSome ∧ y.isSome
      · simp [Action.slotView?, hxy]
      · simp [Action.slotView?, hxy, hv]
    | _ => rfl

/-- The grid of a run counts the live views that are meant. -/
theorem next_runAfter (hk : k ≤ actions.length) (v : String) :
    (runAfter oracle m actions k).grid.next v =
      ((slotsTaken oracle m actions k).map Prod.snd).count v := by
  induction k with
  | zero => rfl
  | succ k ih =>
    rw [slotsTaken, List.map_append, List.count_append, ← ih (Nat.le_of_succ_le hk),
      List.getElem?_eq_getElem hk, runAfter_succ hk]
    cases haction : actions[k] with
    | addToView view element x y width height =>
      obtain ⟨⟨live, hlive, hv⟩, e, hl, he⟩ := h.finds_addToView hk haction
      rw [run_addToView oracle hlive hl ⟨he, hv⟩, Grid.next_commit_boundsFor]
      by_cases hxy : x.isSome ∧ y.isSome
      · simp [Action.slotView?, hxy]
      · by_cases hlv : live = v
        · simp [Action.slotView?, hxy, hlive, hlv]
        · simp [Action.slotView?, hxy, hlive, hlv]
    | _ =>
      rw [(PlacesNothing.applyAction oracle (by simp [Action.op]) _).1]
      simp [Action.slotView?]

end Checked

end Execution

end ArchChange
