import ArchChange.Json.Printer
import ArchChange.Proofs.Json.Reading
/-!
Reading what is printed for integers and strings. An integer is read back from its decimal digits
where no number goes on, and a string from its escaped characters.
-/
namespace ArchChange

/-! Numbers. -/

/-- The decimal digits of a number. -/
def decimals (n : Nat) : List Nat :=
  (Nat.toDigits 10 n).map fun c => c.toNat - '0'.toNat

theorem decimals_of_lt {n : Nat} (h : n < 10) : decimals n = [n] := by
  rw [decimals, Nat.toDigits_of_lt_base h, List.map_singleton]
  exact congrArg (fun d => [d]) (Nat.toNat_digitChar_sub_48_of_lt_ten h)

theorem decimals_of_le {n : Nat} (h : 10 ≤ n) : decimals n = decimals (n / 10) ++ [n % 10] := by
  have hlast : n % 10 < 10 := Nat.mod_lt n (by decide)
  rw [decimals, Nat.toDigits_of_base_le (by decide) h, List.map_append, List.map_singleton]
  exact congrArg (fun d => decimals (n / 10) ++ [d]) (Nat.toNat_digitChar_sub_48_of_lt_ten hlast)

/-- Only zero starts with a zero. -/
theorem exists_decimals_of_pos {n : Nat} (h : 0 < n) :
    ∃ d ds, decimals n = (d + 1) :: ds := by
  induction n using Nat.strongRecOn with
  | ind n ih =>
    by_cases hlt : n < 10
    · exact ⟨n - 1, [], by rw [decimals_of_lt hlt, Nat.sub_add_cancel h]⟩
    · obtain ⟨d, ds, heq⟩ := ih (n / 10) (by omega) (by omega)
      exact ⟨d, ds ++ [n % 10], by rw [decimals_of_le (Nat.le_of_not_lt hlt), heq]; rfl⟩

namespace NumberText

/-- An integer in decimal. -/
def ofInt (n : Int) : NumberText :=
  ⟨decide (n < 0), decimals n.natAbs, none, none⟩

theorem takeWhole_decimals {n : Nat} (h : n < 0x10000000000000000) :
    takeWhole (decimals n) = (n, 0) := by
  induction n using Nat.strongRecOn with
  | ind n ih =>
    by_cases hlt : n < 10
    · simp [decimals_of_lt hlt, takeWhole, h]
    · have hrest := ih (n / 10) (by omega) (by omega)
      have hn : n / 10 * 10 + n % 10 = n := Nat.div_add_mod' n 10
      rw [takeWhole] at hrest
      rw [decimals_of_le (Nat.le_of_not_lt hlt), takeWhole, List.foldl_append, hrest]
      simp [hn, h]

/-- An integer within 64 bits, with or without sign, is read as it was written. -/
theorem value?_ofInt {n : Int} (hlow : -0x8000000000000000 ≤ n) (hhigh : n < 0x10000000000000000) :
    (ofInt n).value? = some (.int n) := by
  have hwhole : takeWhole (decimals n.natAbs) = (n.natAbs, 0) := takeWhole_decimals (by omega)
  have hnone : ¬ 0 < 0 := Nat.lt_irrefl 0
  by_cases hn : n < 0
  · have hrange : 0 < n.natAbs ∧ n.natAbs ≤ 0x8000000000000000 := by omega
    have hsign : -(n.natAbs : Int) = n := by omega
    simp only [value?, ofInt, hwhole, hnone, if_false, decide_eq_true hn, Bool.not_true,
      Bool.false_eq_true, if_pos hrange, hsign]
  · have hsign : (n.natAbs : Int) = n := by omega
    simp only [value?, ofInt, hwhole, hnone, if_false, decide_eq_false hn, Bool.not_false, if_true,
      hsign]

end NumberText

namespace Document

/-- A number does not go on with the text. -/
def Ends (rest : List Char) : Prop :=
  ∀ c ∈ rest.head?, c.isDigit = false ∧ c ≠ '.' ∧ c ≠ 'e' ∧ c ≠ 'E'

theorem ends_comma (rest : List Char) : Ends (',' :: rest) := by
  rintro _ ⟨⟩
  decide

theorem ends_of_isSpace {c : Char} (h : isSpace c = true) (rest : List Char) :
    Ends (c :: rest) := by
  rintro _ ⟨⟩
  simp only [isSpace, Bool.or_eq_true, beq_iff_eq] at h
  rcases h with ((rfl | rfl) | rfl) | rfl <;> decide

theorem digits_append {cs rest : List Char} (hdigits : ∀ c ∈ cs, c.isDigit = true)
    (hrest : ∀ c ∈ rest.head?, c.isDigit = false) :
    digits (cs ++ rest) = (cs.map fun c => c.toNat - '0'.toNat, rest) := by
  induction cs with
  | nil =>
    cases rest with
    | nil => rfl
    | cons c rest => simp [digits, digit?, hrest c rfl]
  | cons c cs ih =>
    obtain ⟨hc, hcs⟩ := List.forall_mem_cons.mp hdigits
    simp [digits, digit?, hc, ih hcs]

theorem whole?_toDigits (n : Nat) {rest : List Char} (h : Ends rest) :
    whole? (Nat.toDigits 10 n ++ rest) = some (decimals n, rest) := by
  have hdigits : digits (Nat.toDigits 10 n ++ rest) = (decimals n, rest) :=
    digits_append (fun _ hc => Nat.isDigit_of_mem_toDigits (by decide) (by decide) hc)
      fun c hc => (h c hc).1
  rw [whole?, hdigits]
  rcases Nat.eq_zero_or_pos n with rfl | hpos
  · rw [decimals_of_lt (by decide)]
    rfl
  · obtain ⟨d, ds, heq⟩ := exists_decimals_of_pos hpos
    rw [heq]
    rfl

theorem fraction?_of_ends {rest : List Char} (h : Ends rest) :
    fraction? rest = some (none, rest) := by
  cases rest with
  | nil => rfl
  | cons c rest => simp [fraction?, (h c rfl).2.1]

theorem exponent?_of_ends {rest : List Char} (h : Ends rest) :
    exponent? rest = some (none, rest) := by
  cases rest with
  | nil => rfl
  | cons c rest => simp [exponent?, (h c rfl).2.2]

/-- A number without a sign ends with its digits. -/
theorem number?_of_whole? {s rest : List Char} {ds : List Nat} (hs : whole? s = some (ds, rest))
    (h : Ends rest) : number? s = some (⟨false, ds, none, none⟩, rest) := by
  rcases s with _ | ⟨c, s⟩
  · cases hs
  · have hsign : c ≠ '-' := by
      rintro rfl
      cases hs
    simp [number?, hsign, hs, fraction?_of_ends h, exponent?_of_ends h]

/-- An integer is read from what is printed of it, unless a number goes on behind it. -/
theorem number?_repr (n : Int) {rest : List Char} (h : Ends rest) :
    number? (n.repr.toList ++ rest) = some (.ofInt n, rest) := by
  have hwhole := whole?_toDigits n.natAbs h
  rw [Int.repr_eq_if, NumberText.ofInt]
  split
  · next hn =>
    have habs : n.toNat = n.natAbs := by omega
    rw [Nat.toList_repr, habs, number?_of_whole? hwhole h, decide_eq_false (Int.not_lt.mpr hn)]
  · next hn =>
    have habs : (-n).toNat = n.natAbs := by omega
    rw [String.toList_append, Nat.toList_repr, habs, decide_eq_true (Int.not_le.mp hn)]
    simp [number?, hwhole, fraction?_of_ends h, exponent?_of_ends h]

/-! Blanks. -/

theorem skipSpace_cons {c : Char} (h : isSpace c = true) (s : List Char) :
    skipSpace (c :: s) = skipSpace s :=
  List.dropWhile_cons_of_pos h

theorem skipSpace_of_not {c : Char} (h : isSpace c = false) (s : List Char) :
    skipSpace (c :: s) = c :: s :=
  List.dropWhile_cons_of_neg (by simp [h])

theorem skipSpace_of_number? {s : List Char} {r : NumberText × List Char}
    (h : number? s = some r) : skipSpace s = s := by
  rcases s with _ | ⟨c, s⟩
  · rfl
  · refine skipSpace_of_not (Bool.eq_false_iff.mpr fun hc => ?_) s
    simp only [isSpace, Bool.or_eq_true, beq_iff_eq] at hc
    rcases hc with ((rfl | rfl) | rfl) | rfl <;> cases h

/-! Strings. -/

/-- The escapes of control characters are those of their numbers. -/
theorem unit?_of_lt {n : Nat} (h : n < 0x20) :
    unit? '0' '0' (Json.hexDigit (n / 16)) (Json.hexDigit (n % 16)) = some n := by
  revert n
  decide +kernel

/-- An escaped character is read as the character. -/
theorem stringBody?_escape (c : Char) (s : List Char) :
    stringBody? (Json.escape c ++ s) = push c (stringBody? s) := by
  unfold Json.escape
  split
  case h_8 _ hslash _ _ _ _ _ =>
    change c ≠ '\\' at hslash
    split
    · next hcontrol =>
      have hlt : c.toNat < 0x20 := hcontrol
      have hhigh : isHighSurrogate c.toNat = false := by simp [isHighSurrogate]; omega
      have hlow : isLowSurrogate c.toNat = false := by simp [isLowSurrogate]; omega
      simp [stringBody?, unit?_of_lt hlt, hhigh, hlow]
    · next hcontrol =>
      have hfault : c ≠ fault := by
        rintro rfl
        exact hcontrol (by decide)
      simp [stringBody?, hslash, hfault, hcontrol]
  all_goals rfl

theorem stringBody?_flatMap_escape (cs rest : List Char) :
    stringBody? (cs.flatMap Json.escape ++ '"' :: rest) = some (some cs, rest) := by
  induction cs with
  | nil => rfl
  | cons c cs ih => rw [List.flatMap_cons, List.append_assoc, stringBody?_escape, ih]; rfl

theorem fault_not_mem_escape (c : Char) : fault ∉ Json.escape c := by
  have hcontrol : ∀ n < 0x20, fault ∉
      ['\\', 'u', '0', '0', Json.hexDigit (n / 16), Json.hexDigit (n % 16)] := by
    decide +kernel
  unfold Json.escape
  split
  case h_8 =>
    split
    · next hlt => exact hcontrol c.toNat hlt
    · next hge =>
      intro hc
      rw [← List.mem_singleton.mp hc] at hge
      exact hge (by decide)
  all_goals decide

theorem toList_quote (s : String) :
    (Json.quote s).toList = '"' :: (s.toList.flatMap Json.escape ++ ['"']) :=
  String.toList_ofList

theorem fault_not_mem_quote (s : String) : fault ∉ (Json.quote s).toList := by
  have hquote : fault ≠ '"' := by decide
  rw [toList_quote]
  simp [fault_not_mem_escape, hquote]

end Document

end ArchChange
