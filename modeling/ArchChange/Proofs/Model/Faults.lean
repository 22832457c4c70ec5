import ArchChange.Model.Store
import Mathlib.Logic.Basic
/-!
Models that refuse calls. A call is refused and changes nothing, or it is made as on the model;
which of the two is read off the schedule and the numbers of the calls. Where nothing is refused
such a model is no other than its model.
-/
namespace ArchChange.FaultyModel

/-- The second state is the first one after some calls. -/
structure Follows (s s' : FaultyModel) : Prop where
  schedule : s'.schedule = s.schedule
  calls : ∀ call, s.calls call ≤ s'.calls call

/-- One of the calls between two states was refused. -/
def Refused (s s' : FaultyModel) : Prop :=
  ∃ call n, s.calls call < n ∧ n ≤ s'.calls call ∧ (s.schedule call n).isSome

variable {s t u : FaultyModel}

theorem Follows.refl (s : FaultyModel) : Follows s s :=
  ⟨rfl, fun _ => Nat.le_refl _⟩

theorem Follows.trans (h : Follows s t) (h' : Follows t u) : Follows s u :=
  ⟨h'.schedule.trans h.schedule, fun call => Nat.le_trans (h.calls call) (h'.calls call)⟩

theorem not_refused_self (s : FaultyModel) : ¬ Refused s s := by
  rintro ⟨call, n, hlt, hle, -⟩
  exact absurd hle (Nat.not_le.mpr hlt)

theorem Follows.refused_iff (h : Follows s t) (h' : Follows t u) :
    Refused s u ↔ Refused s t ∨ Refused t u := by
  constructor
  · rintro ⟨call, n, hlt, hle, hn⟩
    by_cases ht : n ≤ t.calls call
    · exact Or.inl ⟨call, n, hlt, ht, hn⟩
    · exact Or.inr ⟨call, n, Nat.lt_of_not_le ht, hle, by rwa [h.schedule]⟩
  · rintro (⟨call, n, hlt, hle, hn⟩ | ⟨call, n, hlt, hle, hn⟩)
    · exact ⟨call, n, hlt, Nat.le_trans hle (h'.calls call), hn⟩
    · exact ⟨call, n, Nat.lt_of_le_of_lt (h.calls call) hlt, hle, by rwa [h.schedule] at hn⟩

/-- A call is refused without effect, or it is made on the model. -/
theorem attempt_cases {α : Type} (call : StoreCall) (change : Model.Change α) (s : FaultyModel) :
    (∃ error s', attempt call change s = (.error error, s') ∧ Follows s s' ∧ Refused s s' ∧
      s'.model = s.model) ∨
    ∃ s', attempt call change s = ((change s.model).1, s') ∧ Follows s s' ∧ ¬ Refused s s' ∧
      s'.model = (change s.model).2 := by
  have hcounted : ∀ m : Model, Follows s { s with
      model := m
      calls := fun c => if c = call then s.calls call + 1 else s.calls c } := by
    refine fun m => ⟨rfl, fun c => ?_⟩
    by_cases hc : c = call
    · simp [hc]
    · simp [hc]
  unfold attempt
  cases hn : s.schedule call (s.calls call + 1) with
  | some error =>
    refine Or.inl ⟨error, _, by simp only [hn], hcounted s.model, ?_, rfl⟩
    exact ⟨call, s.calls call + 1, Nat.lt_succ_self _, by simp, by simp [hn]⟩
  | none =>
    refine Or.inr ⟨_, by simp only [hn], hcounted _, ?_, rfl⟩
    rintro ⟨c, n, hlt, hle, hrefused⟩
    by_cases hc : c = call
    · subst hc
      obtain rfl : n = s.calls c + 1 := by
        simp only [if_true] at hle
        exact Nat.le_antisymm hle hlt
      simp [hn] at hrefused
    · simp only [hc, if_false] at hle
      exact absurd hle (Nat.not_le.mpr hlt)

end ArchChange.FaultyModel
