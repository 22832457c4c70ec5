import ArchChange.Text.Blank
import Mathlib.Data.List.Basic
/-!
Cutting at the ends of a text that is no blank somewhere. A cut at one end stops at a character
that it cannot take, and what lies behind it does not matter. The cut at a separator is the one of
lists in general.
-/
namespace ArchChange.Text

variable {c : Char}

theorem trimStart_append_cons (hc : isBlankChar c = false) (s t : List Char) :
    trimStart (s ++ c :: t) = trimStart s ++ c :: t := by
  induction s with
  | nil => rw [trimStart, List.nil_append, List.dropWhile_cons_of_neg (by simp [hc])]; rfl
  | cons d s ih =>
    rw [trimStart] at ih ⊢
    by_cases hd : isBlankChar d = true
    · rw [List.cons_append, List.dropWhile_cons_of_pos hd, ih, trimStart, trimStart,
        List.dropWhile_cons_of_pos hd]
    · rw [List.cons_append, List.dropWhile_cons_of_neg hd, trimStart,
        List.dropWhile_cons_of_neg hd, List.cons_append]

theorem trimEnd_append_cons (hc : isBlankChar c = false) (s t : List Char) :
    trimEnd (s ++ c :: t) = s ++ c :: trimEnd t := by
  have hreverse : (s ++ c :: t).reverse = t.reverse ++ c :: s.reverse := by simp
  rw [trimEnd, hreverse, trimStart_append_cons hc, trimEnd]
  simp

/-- Past its leading blanks a text is not cut. -/
theorem trimStart_append {s : List Char} (h : trimStart s ≠ []) (t : List Char) :
    trimStart (s ++ t) = trimStart s ++ t := by
  unfold trimStart at h ⊢
  induction s with
  | nil => exact absurd rfl h
  | cons c s ih =>
    by_cases hc : isBlankChar c = true
    · rw [List.dropWhile_cons_of_pos hc] at h
      rw [List.cons_append, List.dropWhile_cons_of_pos hc, List.dropWhile_cons_of_pos hc, ih h]
    · rw [List.cons_append, List.dropWhile_cons_of_neg hc, List.dropWhile_cons_of_neg hc,
        List.cons_append]

theorem trimEnd_eq_nil_iff (s : List Char) : trimEnd s = [] ↔ s.all isBlankChar = true := by
  rw [trimEnd, List.reverse_eq_nil_iff, trimStart_eq_nil_iff, List.all_reverse]

theorem mem_of_mem_trimStart {s : List Char} (h : c ∈ trimStart s) : c ∈ s :=
  (List.dropWhile_sublist isBlankChar).subset h

theorem after?_append {s : List Char} (h : c ∈ s) (t : List Char) : ∃ rest,
    after? c (s ++ t) = some (rest ++ t) ∧ ∀ d ∈ rest, d ∈ s := by
  induction s with
  | nil => cases h
  | cons d s ih =>
    by_cases hd : d = c
    · exact ⟨s, by simp [after?, hd], fun e he => List.mem_cons_of_mem _ he⟩
    · have hs : c ∈ s := (List.mem_cons.mp h).resolve_left fun heq => hd heq.symm
      obtain ⟨rest, hrest, hmem⟩ := ih hs
      refine ⟨rest, by simpa [after?, hd] using hrest, fun e he => ?_⟩
      exact List.mem_cons_of_mem _ (hmem e he)

theorem dropLead?_append (lead s : List Char) : dropLead? lead (lead ++ s) = some s := by
  induction lead with
  | nil => rfl
  | cons c lead ih => simp [dropLead?, ih]

theorem eq_append_of_dropLead? {lead s rest : List Char} (h : dropLead? lead s = some rest) :
    s = lead ++ rest := by
  induction lead generalizing s with
  | nil =>
    cases h
    rfl
  | cons c lead ih =>
    rcases s with _ | ⟨d, s⟩
    · cases h
    · by_cases hc : c = d
      · rw [dropLead?, if_pos hc] at h
        rw [ih h, hc, List.cons_append]
      · rw [dropLead?, if_neg hc] at h
        cases h

theorem dropLead?_append_cons {lead : List Char} (hc : c ∉ lead) (s t : List Char) :
    dropLead? lead (s ++ c :: t) = (dropLead? lead s).map (· ++ c :: t) := by
  induction lead generalizing s with
  | nil => rfl
  | cons d lead ih =>
    obtain ⟨hd, hlead⟩ := not_or.mp (mt List.mem_cons.mpr hc)
    rcases s with _ | ⟨e, s⟩
    · simp [dropLead?, Ne.symm hd]
    · by_cases he : d = e
      · simp [dropLead?, he, ih hlead]
      · simp [dropLead?, he]

theorem dropTail?_append_cons {tail : List Char} (hc : c ∉ tail) (s t : List Char) :
    dropTail? tail (s ++ c :: t) = (dropTail? tail t).map (s ++ c :: ·) := by
  have hreverse : (s ++ c :: t).reverse = t.reverse ++ c :: s.reverse := by simp
  rw [dropTail?, hreverse, dropLead?_append_cons (by simpa using hc), dropTail?, Option.map_map,
    Option.map_map]
  congr 1
  funext r
  simp

/-- The pieces are those that the library's own cutting of lists gives. -/
theorem pieces_eq_splitOn (c : Char) (s : List Char) : pieces c s = s.splitOn c := by
  induction s with
  | nil => rfl
  | cons d s ih =>
    rw [pieces, ih]
    simp only [List.splitOn]
    rw [List.splitOnP_cons_eq_if_modifyHead]
    by_cases h : d = c
    · simp [h]
    · cases hs : List.splitOnP (fun x => x == c) s with
      | nil => exact absurd hs (List.splitOnP_ne_nil _ _)
      | cons p ps => simp [h]

end ArchChange.Text
