import ArchChange.Proofs.Execution.Slots
import Mathlib.Algebra.Order.Field.Rat
import Mathlib.Order.CompletePartialOrder
import Mathlib.Tactic.Linarith
/-!
Placements on one grid, one after the other. A place is asked for and then kept or not; on each
view the places that are kept and were not given go from slot to slot, whatever is asked in
between, so those of default size lie apart.
-/
namespace ArchChange

/-- The points of a rectangle, its border included. -/
def Bounds.area (b : Bounds) : Set (ℚ × ℚ) :=
  { p | (b.x ≤ p.1 ∧ p.1 ≤ b.x + b.width) ∧ b.y ≤ p.2 ∧ p.2 ≤ b.y + b.height }

namespace Execution

/-- A place that is asked for on a view, and whether it is kept. -/
structure Asking where
  view : String
  request : PlaceRequest
  kept : Bool
deriving DecidableEq, Repr

/-- The place is kept on the view, and at least one of its coordinates was not given. -/
def Asking.takes (view : String) (a : Asking) : Bool :=
  a.kept && a.view == view && !(a.request.x.isSome && a.request.y.isSome)

/-- A place with what it answers. -/
structure Answer where
  asking : Asking
  bounds : Bounds
  placement : Placement
deriving DecidableEq, Repr

namespace Grid

/-- The grid after a place was asked for, and kept or not. -/
def after (g : Grid) (a : Asking) : Grid :=
  if a.kept then g.commit a.view (g.boundsFor a.view a.request).2 else g

/-- The places asked for one after the other, with what they answer. -/
def answers (g : Grid) : List Asking → List Answer
  | [] => []
  | a :: as =>
    ⟨a, (g.boundsFor a.view a.request).1, (g.boundsFor a.view a.request).2⟩ ::
      (g.after a).answers as

/-- The answers that have taken a slot of the view. -/
def taken (view : String) (ps : List Answer) : List Answer :=
  ps.filter fun p => p.asking.takes view

variable (g : Grid) (view : String)

/-- Only a place that takes a slot of the view moves the grid on there. -/
theorem next_after (a : Asking) :
    (g.after a).next view = g.next view + if a.takes view then 1 else 0 := by
  obtain ⟨other, request, kept⟩ := a
  cases kept with
  | false => simp [after, Asking.takes]
  | true =>
    simp only [after, if_true, next_commit_boundsFor, Asking.takes]
    by_cases hview : other = view
    · by_cases hgiven : request.x.isSome ∧ request.y.isSome
      · simp [hview, hgiven]
      · have hopen : (request.x.isSome && request.y.isSome) = false := by simpa using hgiven
        simp [hview, hgiven, hopen]
    · simp [hview]

/-- From any state of the grid, what takes slots of the view takes the next ones in order. -/
theorem taken_answers (asks : List Asking) :
    (taken view (g.answers asks)).map (fun p => (p.placement, p.bounds.x, p.bounds.y)) =
      (List.range' (g.next view) (taken view (g.answers asks)).length).map
        fun slot => (.auto slot, position slot) := by
  -- the slot that is next is the base of the range, and moves on with every place that takes one
  induction asks generalizing g with
  | nil => rfl
  | cons a asks ih =>
    have hrest := ih (g.after a)
    rw [next_after] at hrest
    by_cases htakes : a.takes view = true
    · have hopen : ¬ (a.request.x.isSome ∧ a.request.y.isSome) := by
        intro hgiven
        simp [Asking.takes, hgiven] at htakes
      have hview : a.view = view := by
        simp only [Asking.takes, Bool.and_eq_true, beq_iff_eq] at htakes
        exact htakes.1.2
      rw [if_pos htakes] at hrest
      have hcons : taken view (g.answers (a :: asks)) =
          ⟨a, (g.boundsFor a.view a.request).1, (g.boundsFor a.view a.request).2⟩ ::
            taken view ((g.after a).answers asks) := List.filter_cons_of_pos htakes
      rw [hcons, List.map_cons, hrest, List.length_cons, List.range'_succ, List.map_cons, hview,
        boundsFor_of_auto g view hopen]
    · rw [if_neg htakes, Nat.add_zero] at hrest
      have hcons : taken view (g.answers (a :: asks)) = taken view ((g.after a).answers asks) :=
        List.filter_cons_of_neg htakes
      rw [hcons]
      exact hrest

end Grid

/-- The rectangle has the default size. -/
def Grid.DefaultSize (b : Bounds) : Prop :=
  b.width = defaultWidth ∧ b.height = defaultHeight

instance (b : Bounds) : Decidable (Grid.DefaultSize b) :=
  inferInstanceAs (Decidable (_ ∧ _))

/-- Rectangles of default size in different slots do not even touch. -/
theorem Grid.disjoint_area {b c : Bounds} {slot slot' : Nat} (hne : slot ≠ slot')
    (hb : DefaultSize b) (hc : DefaultSize c) (hslot : (b.x, b.y) = position slot)
    (hslot' : (c.x, c.y) = position slot') : Disjoint b.area c.area := by
  obtain ⟨x, y, width, height⟩ := b
  obtain ⟨x', y', width', height'⟩ := c
  simp only [DefaultSize, defaultWidth, defaultHeight] at hb hc
  simp only [position, origin, stepX, stepY, columns, Prod.mk.injEq] at hslot hslot'
  -- two slots differ in their column or in their row, by a step that exceeds the size
  have hapart : (x + width < x' ∨ x' + width' < x) ∨ (y + height < y' ∨ y' + height' < y) := by
    omega
  rw [Set.disjoint_left]
  rintro ⟨p, q⟩ ⟨⟨hleft, hright⟩, hlow, hhigh⟩ ⟨⟨hleft', hright'⟩, hlow', hhigh'⟩
  rcases hapart with (h | h) | h | h
  · have hcast : (x : ℚ) + width < x' := by exact_mod_cast h
    linarith
  · have hcast : (x' : ℚ) + width' < x := by exact_mod_cast h
    linarith
  · have hcast : (y : ℚ) + height < y' := by exact_mod_cast h
    linarith
  · have hcast : (y' : ℚ) + height' < y := by exact_mod_cast h
    linarith

/-- Whatever places are asked for on whatever views, given in full, in part or not at all, kept or
not: of those kept on a view and not given in full, the first is at slot 0, the next at slot 1 and
so on, four to a row; and those of default size are disjoint. -/
theorem auto_placements_apart (asks : List Asking) (view : String) :
    let ps := Grid.taken view (Grid.empty.answers asks)
    ps.map (fun p => (p.placement, p.bounds.x, p.bounds.y)) =
      (List.range ps.length).map (fun k =>
        (.auto k, 30 + 160 * ((k % 4 : Nat) : Int), 30 + 80 * ((k / 4 : Nat) : Int))) ∧
    (ps.filter fun p => Grid.DefaultSize p.bounds).Pairwise fun p q =>
      Disjoint p.bounds.area q.bounds.area := by
  intro ps
  have hslots := Grid.taken_answers .empty view asks
  rw [Grid.next_empty, ← List.range_eq_range'] at hslots
  refine ⟨hslots.trans (List.map_congr_left fun k _ => ?_), ?_⟩
  · simp only [Grid.position, Grid.origin, Grid.stepX, Grid.stepY, Grid.columns]
    rw [Int.mul_comm 160, Int.mul_comm 80]
  · rw [List.pairwise_filter, List.pairwise_iff_getElem]
    intro i j hi hj hij hp hq
    have hcorner : ∀ k (hk : k < ps.length),
        (ps[k].bounds.x, ps[k].bounds.y) = Grid.position k := by
      intro k hk
      have hget := congrArg (fun l => l[k]?) hslots
      simp only [List.getElem?_map] at hget
      rw [List.getElem?_eq_getElem hk, List.getElem?_range hk] at hget
      exact congrArg Prod.snd (Option.some.inj hget)
    exact Grid.disjoint_area (Nat.ne_of_lt hij) (by simpa using hp) (by simpa using hq)
      (hcorner i hi) (hcorner j hj)

/-- Neither a place in full nor one that is not kept nor one on another view moves the grid on. -/
example :
    let free : PlaceRequest := ⟨none, none, none, none⟩
    (Grid.taken "desk" (Grid.empty.answers [⟨"desk", free, true⟩,
      ⟨"desk", ⟨some 400, some 500, none, none⟩, true⟩, ⟨"desk", free, false⟩,
      ⟨"hall", free, true⟩, ⟨"desk", ⟨some 7, none, none, none⟩, true⟩])).map
        (fun p => (p.bounds.x, p.bounds.y)) = [(30, 30), (190, 30)] := by
  decide

end Execution

end ArchChange
