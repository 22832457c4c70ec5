import ArchChange.Proofs.Model.Allotments
import Mathlib.Algebra.GroupWithZero.Nat
/-!
Numbers of new ids. As long as the counter has room they grow, whatever the stems, so in a model
that has come about by operations alone the id of a deleted entity never comes back. How far the
counter may get is known beforehand: an operation moves it past ids in use and by one.
-/
namespace ArchChange.Model

theorem eq_of_append_cons_eq {α : Type} {c : α} {a a' b b' : List α} (hb : c ∉ b) (hb' : c ∉ b')
    (h : a ++ c :: b = a' ++ c :: b') : b = b' := by
  rcases List.append_eq_append_iff.mp h with ⟨t, -, ht⟩ | ⟨t, -, ht⟩
  · cases t with
    | nil => exact (List.cons.inj ht).2
    | cons x t =>
      rw [(List.cons.inj ht).2] at hb
      simp at hb
  · cases t with
    | nil => exact (List.cons.inj ht).2.symm
    | cons x t =>
      rw [(List.cons.inj ht).2] at hb'
      simp at hb'

/-- An id tells its number, whatever its stem: digits are no dashes. -/
theorem number_eq {stem stem' : String} {n n' : Nat} (h : numbered stem n = numbered stem' n') :
    n = n' := by
  have hdash : ∀ i, '-' ∉ (Nat.repr i).toList := by
    intro i hi
    rw [Nat.toList_repr] at hi
    have hdigit := Nat.isDigit_of_mem_toDigits (by decide) (by decide) hi
    exact absurd hdigit (by decide)
  have hlists : stem.toList ++ '-' :: (Nat.repr n).toList =
      stem'.toList ++ '-' :: (Nat.repr n').toList := by
    have htoList := congrArg String.toList h
    simpa [numbered, toString] using htoList
  exact Nat.repr_injective (String.toList_inj.mp
    (eq_of_append_cons_eq (hdash n) (hdash n') hlists))

/-- The counter has room for so many more allocations: it will not start over in them, even if it
has to pass over all ids in the model. -/
def HasRoom (m : Model) (count : Nat) : Prop :=
  m.nextId + m.ids.dedup.length + count < counterSize

instance (m : Model) (count : Nat) : Decidable (m.HasRoom count) :=
  inferInstanceAs (Decidable (_ < _))

open Classical in
/-- The ids in the model that are numbered above what it has allocated. -/
noncomputable def ahead (m : Model) : Finset String :=
  m.ids.toFinset.filter fun id => ∃ stem n, id = numbered stem n ∧ m.nextId < n

/-- Where the counter stands once it has passed over all ids ahead of it. -/
noncomputable def reach (m : Model) : Nat :=
  m.nextId + m.ahead.card

/-- What the second model has got since the first is numbered above what the first has allocated,
and its counter reaches further by so many numbers at most. -/
structure Allocates (count : Nat) (m m' : Model) : Prop where
  nextId_le : m.nextId ≤ m'.nextId
  entityIds : ∀ x ∈ m'.entityIds, x ∈ m.entityIds ∨
    ∃ stem n, x = numbered stem n ∧ m.nextId < n ∧ n ≤ m'.nextId
  reach_le : m'.reach ≤ m.reach + count

/-- The ids of the entities are numbered up to what the model has allocated. -/
def Numbered (m : Model) : Prop :=
  ∀ x ∈ m.entityIds, ∃ stem n, x = numbered stem n ∧ n ≤ m.nextId

variable {m m' m'' : Model} {count count' : Nat} {stem x : String}

theorem mem_ahead :
    x ∈ m.ahead ↔ x ∈ m.ids ∧ ∃ stem n, x = numbered stem n ∧ m.nextId < n := by
  simp only [ahead, Finset.mem_filter, List.mem_toFinset]

theorem HasRoom.reach_lt (h : m.HasRoom count) : m.reach + count < counterSize := by
  have hsubset : m.ahead ⊆ m.ids.toFinset := fun x hx => List.mem_toFinset.mpr (mem_ahead.mp hx).1
  have hcard := Finset.card_le_card hsubset
  rw [List.card_toFinset] at hcard
  rw [HasRoom] at h
  rw [reach]
  omega

/-- With numbers left above, an allocation goes on from the last one. -/
theorem nextId_allocate (h : m.reach + 1 < counterSize) (stem : String) :
    IsLeast {k | m.nextId < k ∧ numbered stem k ∉ m.ids} (m.allocate stem).2.nextId ∧
      (m.allocate stem).2.nextId < counterSize := by
  refine (nextFree_cases m.ids stem m.nextId).resolve_right ?_
  rintro ⟨htaken, -⟩
  -- the numbers after the last one would all be taken by ids ahead, one more than there are
  have hcard : m.ahead.card + 1 ≤ m.ahead.card := by
    refine le_card_of_numbered_mem stem (m.nextId + 1) ?_
    intro i hn hi
    rw [reach] at h
    exact mem_ahead.mpr ⟨htaken i hn (by omega), stem, i, rfl, hn⟩
  omega

/-! What operations do to the counter. -/

/-- With no new ids nothing gets ahead. -/
theorem ahead_subset (hn : m.nextId ≤ m'.nextId) (hids : ∀ x ∈ m'.ids, x ∈ m.ids ∨
    ∃ stem, x = numbered stem m'.nextId) : m'.ahead ⊆ m.ahead := by
  intro x hx
  obtain ⟨hx, stem, n, rfl, hlt⟩ := mem_ahead.mp hx
  refine mem_ahead.mpr ⟨(hids _ hx).resolve_right ?_, stem, n, rfl, Nat.lt_of_le_of_lt hn hlt⟩
  rintro ⟨stem', heq⟩
  exact Nat.ne_of_gt hlt (number_eq heq)

theorem Allocates.refl (m : Model) : Allocates 0 m m :=
  ⟨Nat.le_refl _, fun _ hx => Or.inl hx, Nat.le_refl _⟩

theorem Allocates.mono (h : Allocates count m m') (hle : count ≤ count') :
    Allocates count' m m' :=
  ⟨h.nextId_le, h.entityIds, Nat.le_trans h.reach_le (Nat.add_le_add_left hle _)⟩

theorem Allocates.trans (h : Allocates count m m') (h' : Allocates count' m' m'') :
    Allocates (count + count') m m'' where
  nextId_le := Nat.le_trans h.nextId_le h'.nextId_le
  entityIds := by
    intro x hx
    rcases h'.entityIds x hx with hx | ⟨stem, n, rfl, hlt, hle⟩
    · rcases h.entityIds x hx with hx | ⟨stem, n, rfl, hlt, hle⟩
      · exact Or.inl hx
      · exact Or.inr ⟨stem, n, rfl, hlt, Nat.le_trans hle h'.nextId_le⟩
    · exact Or.inr ⟨stem, n, rfl, Nat.lt_of_le_of_lt h.nextId_le hlt, hle⟩
  reach_le := by
    have hfirst := h.reach_le
    have hsecond := h'.reach_le
    omega

variable {op : Operation}

theorem Operation.AllotsNothing.allocates (h : op.AllotsNothing m) :
    Allocates 0 m (op.run m) where
  nextId_le := Nat.le_of_eq h.nextId.symm
  entityIds := fun _ hx => Or.inl (h.entityIds hx)
  reach_le := by
    have hsubset : (op.run m).ahead ⊆ m.ahead :=
      ahead_subset (Nat.le_of_eq h.nextId.symm) fun _ hx => Or.inl (h.ids hx)
    have hcard := Finset.card_le_card hsubset
    rw [reach, reach, h.nextId]
    omega

namespace Operation.Allots

variable (h : op.Allots m stem) (hroom : m.reach + 1 < counterSize)

include h hroom

theorem isLeast_nextId :
    IsLeast {k | m.nextId < k ∧ numbered stem k ∉ m.ids} (op.run m).nextId := by
  rw [h.nextId]
  exact (nextId_allocate hroom stem).1

omit hroom in
theorem allocated_eq : (m.allocate stem).1 = numbered stem (op.run m).nextId := by
  rw [h.nextId]
  rfl

theorem ahead_subset : (op.run m).ahead ⊆ m.ahead := by
  refine Model.ahead_subset (Nat.le_of_lt (h.isLeast_nextId hroom).1.1) fun x hx => ?_
  rcases List.mem_cons.mp (h.ids hx) with rfl | hx
  · exact Or.inr ⟨stem, h.allocated_eq⟩
  · exact Or.inl hx

/-- The numbers that an allocation passes over are those of ids ahead, and afterwards they are
ahead no longer. -/
theorem passed_le : (op.run m).nextId - (m.nextId + 1) ≤ (m.ahead \ (op.run m).ahead).card := by
  have hleast := h.isLeast_nextId hroom
  have hlt : m.nextId < (op.run m).nextId := hleast.1.1
  refine le_card_of_numbered_mem stem (m.nextId + 1) ?_
  intro i hn hi
  have hbelow : i < (op.run m).nextId := by omega
  have htaken : numbered stem i ∈ m.ids := by
    by_contra hfree
    exact Nat.not_le_of_lt hbelow (hleast.2 ⟨hn, hfree⟩)
  refine Finset.mem_sdiff.mpr ⟨mem_ahead.mpr ⟨htaken, stem, i, rfl, hn⟩, ?_⟩
  intro hahead
  obtain ⟨-, stem', k, heq, hk⟩ := mem_ahead.mp hahead
  rw [number_eq heq] at hbelow
  omega

theorem allocates : Allocates 1 m (op.run m) where
  nextId_le := Nat.le_of_lt (h.isLeast_nextId hroom).1.1
  entityIds := by
    intro x hx
    rcases List.mem_cons.mp (h.entityIds hx) with rfl | hx
    · exact Or.inr ⟨stem, _, h.allocated_eq, (h.isLeast_nextId hroom).1.1, Nat.le_refl _⟩
    · exact Or.inl hx
  reach_le := by
    have hsubset := h.ahead_subset hroom
    have hpassed := h.passed_le hroom
    have hcard := Finset.card_le_card hsubset
    rw [Finset.card_sdiff_of_subset hsubset] at hpassed
    rw [reach, reach]
    omega

end Operation.Allots

/-- How many allocations an operation makes at most. -/
def Operation.cost (op : Operation) : Nat :=
  if op.stem?.isSome then 1 else 0

theorem Operation.cost_le_one (op : Operation) : op.cost ≤ 1 := by
  unfold Operation.cost
  split
  · exact Nat.le_refl 1
  · exact Nat.zero_le 1

theorem Operation.Allots.cost_eq (h : op.Allots m stem) : op.cost = 1 := by
  rw [Operation.cost, h.stem?]
  rfl

theorem allocates_run (op : Operation) (hroom : m.reach + op.cost < counterSize) :
    Allocates op.cost m (op.run m) := by
  rcases op.allots_cases m with hnot | ⟨stem, hallots⟩
  · exact hnot.allocates.mono (Nat.zero_le _)
  · rw [hallots.cost_eq] at hroom ⊢
    exact hallots.allocates hroom

theorem allocates_foldl {ops : List Operation}
    (hroom : m.reach + (ops.map Operation.cost).sum < counterSize) :
    Allocates (ops.map Operation.cost).sum m (ops.foldl Operation.run m) := by
  induction ops generalizing m with
  | nil => exact .refl m
  | cons op ops ih =>
    rw [List.map_cons, List.sum_cons] at hroom ⊢
    have hfirst : Allocates op.cost m (op.run m) := allocates_run op (by omega)
    have hreach := hfirst.reach_le
    exact hfirst.trans (ih (by omega))

theorem OperatesTo.allocates_of_quiet (h : OperatesTo (fun op => op.stem? = none) m m') :
    Allocates 0 m m' := by
  induction h with
  | refl => exact .refl m
  | tail _ hstep ih =>
    obtain ⟨op, hquiet, rfl⟩ := hstep
    rcases op.allots_cases _ with hnot | ⟨stem, hallots⟩
    · exact ih.trans hnot.allocates
    · rw [hallots.stem?] at hquiet
      cases hquiet

theorem numbered_new (name : String) : (new name).Numbered := by
  simp [Numbered, new, entityIds, endpointIds, elementIds, relationshipIds, viewIds]

theorem Allocates.numbered (h : Allocates count m m') (hm : m.Numbered) : m'.Numbered := by
  intro x hx
  rcases h.entityIds x hx with hx | ⟨stem, n, rfl, -, hle⟩
  · obtain ⟨stem, n, rfl, hle⟩ := hm x hx
    exact ⟨stem, n, rfl, Nat.le_trans hle h.nextId_le⟩
  · exact ⟨stem, n, rfl, hle⟩

/-- Once it is missing, an id does not come back. -/
theorem Numbered.not_mem (hm : m.Numbered) (h : Allocates count m m')
    (h' : Allocates count' m' m'') (hx : x ∈ m.entityIds) (hmissing : x ∉ m'.entityIds) :
    x ∉ m''.entityIds := by
  intro hback
  obtain ⟨stem, n, rfl, hle⟩ := hm x hx
  obtain ⟨stem', n', heq, hlt, -⟩ := (h'.entityIds _ hback).resolve_left hmissing
  have hn := number_eq heq
  have hgrown := h.nextId_le
  omega

end ArchChange.Model
