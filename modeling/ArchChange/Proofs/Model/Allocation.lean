import ArchChange.Model.Ids
import Mathlib.Data.Finset.Card
import Mathlib.Order.Bounds.Basic
import Std.Data.String.ToNat
/-!
New ids. Numbers tell ids apart, and among more numbers than there are ids one is free, so the
search for a free number ends with one. The counter starts over only where all its numbers above
the last one belong to ids in use.
-/
namespace ArchChange.Model

theorem numbered_injective (stem : String) : Function.Injective (numbered stem) := by
  intro a b h
  have hrepr : Nat.repr a = Nat.repr b := by
    simpa [numbered, toString, String.append_right_inj, String.append_left_inj] using h
  exact Nat.repr_injective hrepr

variable {used : List String} {stem : String} {tries n : Nat}

theorem le_firstFree : n ≤ firstFree used stem tries n := by
  induction tries generalizing n with
  | zero => exact Nat.le_refl n
  | succ tries ih =>
    rw [firstFree]
    split
    · exact Nat.le_of_succ_le ih
    · exact Nat.le_refl n

/-- The numbers that the search passes over belong to ids in use. -/
theorem numbered_mem_of_lt_firstFree {i : Nat} (hn : n ≤ i)
    (hi : i < firstFree used stem tries n) : numbered stem i ∈ used := by
  induction tries generalizing n with
  | zero =>
    rw [firstFree] at hi
    omega
  | succ tries ih =>
    rw [firstFree] at hi
    split at hi
    · next hu =>
      by_cases he : i = n
      · subst he
        simpa using hu
      · exact ih (by omega) hi
    · omega

/-- The search gives up only after all its tries. -/
theorem firstFree_eq_of_mem (h : numbered stem (firstFree used stem tries n) ∈ used) :
    firstFree used stem tries n = n + tries := by
  induction tries generalizing n with
  | zero => rfl
  | succ tries ih =>
    rw [firstFree] at h ⊢
    split at h
    · next hu =>
      rw [if_pos hu, ih h]
      omega
    · next hu => exact absurd (by simpa using h) hu

/-- No more numbers in a row are taken than there are ids to take them. -/
theorem le_card_of_numbered_mem (stem : String) (n : Nat) {ids : Finset String} {k : Nat}
    (h : ∀ i, n ≤ i → i < n + k → numbered stem i ∈ ids) : k ≤ ids.card := by
  have htaken : (Finset.range k).image (fun i => numbered stem (n + i)) ⊆ ids := by
    intro id hid
    obtain ⟨i, hi, rfl⟩ := Finset.mem_image.mp hid
    exact h (n + i) (Nat.le_add_right n i) (Nat.add_lt_add_left (Finset.mem_range.mp hi) n)
  have hinjective : Function.Injective fun i => numbered stem (n + i) :=
    (numbered_injective stem).comp fun _ _ => Nat.add_left_cancel
  have hcard := Finset.card_le_card htaken
  rwa [Finset.card_image_of_injective _ hinjective, Finset.card_range] at hcard

/-- Among more numbers than ids in use there is one of an id that is not in use. -/
theorem numbered_firstFree_not_mem (h : used.length ≤ tries) :
    numbered stem (firstFree used stem tries n) ∉ used := by
  intro hmem
  have heq := firstFree_eq_of_mem hmem
  have htaken : ∀ i, n ≤ i → i < n + (tries + 1) → numbered stem i ∈ used := by
    intro i hn hi
    by_cases he : i = n + tries
    · rwa [he, ← heq]
    · exact numbered_mem_of_lt_firstFree hn (show i < firstFree used stem tries n by omega)
  have hcard := le_card_of_numbered_mem stem n fun i hn hi => List.mem_toFinset.mpr (htaken i hn hi)
  have hlength := used.toFinset_card_le
  omega

/-- The search ends with the least free number. -/
theorem isLeast_firstFree (h : used.length ≤ tries) :
    IsLeast {k | n ≤ k ∧ numbered stem k ∉ used} (firstFree used stem tries n) := by
  refine ⟨⟨le_firstFree, numbered_firstFree_not_mem h⟩, ?_⟩
  rintro k ⟨hn, hfree⟩
  by_contra hlt
  exact hfree (numbered_mem_of_lt_firstFree hn (Nat.lt_of_not_le hlt))

/-- The counter goes on to the least free number above the last one; only if it has none there, it
starts over and takes the least free number of all. -/
theorem nextFree_cases (used : List String) (stem : String) (last : Nat) :
    (IsLeast {k | last < k ∧ numbered stem k ∉ used} (nextFree used stem last) ∧
      nextFree used stem last < counterSize) ∨
    ((∀ k, last < k → k < counterSize → numbered stem k ∈ used) ∧
      IsLeast {k | numbered stem k ∉ used} (nextFree used stem last)) := by
  have habove : IsLeast {k | last < k ∧ numbered stem k ∉ used}
      (firstFree used stem used.length (last + 1)) := isLeast_firstFree (Nat.le_refl used.length)
  unfold nextFree
  by_cases hlt : firstFree used stem used.length (last + 1) < counterSize
  · rw [if_pos hlt]
    exact Or.inl ⟨habove, hlt⟩
  · rw [if_neg hlt]
    refine Or.inr ⟨?_, by simpa using isLeast_firstFree (n := 0) (Nat.le_refl used.length)⟩
    intro k hlast hk
    exact numbered_mem_of_lt_firstFree hlast (Nat.lt_of_lt_of_le hk (Nat.le_of_not_lt hlt))

theorem numbered_nextFree_not_mem (used : List String) (stem : String) (last : Nat) :
    numbered stem (nextFree used stem last) ∉ used := by
  rcases nextFree_cases used stem last with ⟨hleast, -⟩ | ⟨-, hleast⟩
  · exact hleast.1.2
  · exact hleast.1

/-- An allocated id is none of the ids in the model. -/
theorem allocate_not_mem (m : Model) (stem : String) : (m.allocate stem).1 ∉ m.ids :=
  numbered_nextFree_not_mem m.ids stem m.nextId

end ArchChange.Model
