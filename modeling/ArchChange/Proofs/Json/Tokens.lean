import ArchChange.Json.Reader
/-!
What the readers of numbers and strings take off the front of a text. A string is read alike before
any text, and a number before any text that goes on with the same character.
-/
namespace ArchChange

namespace Document

section

variable {α β : Type}

/-- What the reader finds it takes off the front of a text, and it finds the same before any text
that goes on with the same character. -/
def TakesPrefix (read : List Char → Option (α × List Char)) : Prop :=
  ∀ s a rest, read s = some (a, rest) → ∃ used, s = used ++ rest ∧
    ∀ rest', rest'.head? = rest.head? → read (used ++ rest') = some (a, rest')

theorem takesPrefix_nothing (a : Option α) : TakesPrefix fun s => a.map fun a => (a, s) := by
  intro s b rest h
  obtain ⟨c, rfl, heq⟩ := Option.map_eq_some_iff.mp h
  cases heq
  exact ⟨[], rfl, fun rest' _ => rfl⟩

theorem TakesPrefix.bind {read : List Char → Option (α × List Char)}
    {next : α → List Char → Option (β × List Char)} (hr : TakesPrefix read)
    (hn : ∀ a, TakesPrefix (next a)) :
    TakesPrefix fun s => (read s).bind fun r => next r.1 r.2 := by
  intro s b rest h
  obtain ⟨⟨a, middle⟩, ha, hb⟩ := Option.bind_eq_some_iff.mp h
  obtain ⟨used', rfl, hnext⟩ := hn a middle b rest hb
  obtain ⟨used, rfl, hfirst⟩ := hr s a (used' ++ rest) ha
  refine ⟨used ++ used', (List.append_assoc ..).symm, fun rest' hrest => ?_⟩
  have hhead : (used' ++ rest').head? = (used' ++ rest).head? := by
    rw [List.head?_append, List.head?_append, hrest]
  change (read (used ++ used' ++ rest')).bind _ = _
  rw [List.append_assoc, hfirst _ hhead]
  exact hnext rest' hrest

/-- A reader that goes by the first character takes what its two readers take. -/
theorem TakesPrefix.of_head {read other : List Char → Option (α × List Char)} (p : Char → Prop)
    (hp : ∀ c, p c → TakesPrefix fun s => read (c :: s)) (ho : TakesPrefix other)
    (hread : ∀ s, (∀ c ∈ s.head?, ¬ p c) → read s = other s) : TakesPrefix read := by
  intro s a rest h
  by_cases hhead : ∃ c ∈ s.head?, p c
  · obtain ⟨c, hc, hpc⟩ := hhead
    obtain ⟨t, rfl⟩ := List.head?_eq_some_iff.mp hc
    obtain ⟨used, rfl, hused⟩ := hp c hpc t a rest h
    exact ⟨c :: used, rfl, hused⟩
  · simp only [not_exists, not_and] at hhead
    rw [hread s hhead] at h
    obtain ⟨used, rfl, hused⟩ := ho s a rest h
    refine ⟨used, rfl, fun rest' hrest => ?_⟩
    have hsame : (used ++ rest').head? = (used ++ rest).head? := by
      rw [List.head?_append, List.head?_append, hrest]
    rw [hread _ (hsame ▸ hhead)]
    exact hused rest' hrest

end

/-! Numbers. -/

theorem exists_digits_eq (s : List Char) : ∃ used, s = used ++ (digits s).2 ∧
    ∀ rest, rest.head? = (digits s).2.head? → digits (used ++ rest) = ((digits s).1, rest) := by
  induction s with
  | nil =>
    refine ⟨[], rfl, fun rest hrest => ?_⟩
    obtain rfl : rest = [] := List.head?_eq_none_iff.mp hrest
    rfl
  | cons c s ih =>
    cases hc : digit? c with
    | none =>
      refine ⟨[], by simp [digits, hc], fun rest hrest => ?_⟩
      simp only [digits, hc, List.head?_cons, List.head?_eq_some_iff] at hrest
      obtain ⟨rest, rfl⟩ := hrest
      simp [digits, hc]
    | some d =>
      obtain ⟨used, hs, hused⟩ := ih
      simp only [digits, hc]
      refine ⟨c :: used, by rw [List.cons_append, ← hs], fun rest hrest => ?_⟩
      rw [List.cons_append, digits, hc, hused rest hrest]

theorem takesPrefix_digits : TakesPrefix fun s => some (digits s) := by
  intro s ds rest h
  obtain ⟨used, hs, hused⟩ := exists_digits_eq s
  rw [Option.some.inj h] at hs hused
  exact ⟨used, hs, fun rest' hrest => congrArg some (hused rest' hrest)⟩

/-- The digits of a whole number: there are some, and a zero has none behind it. -/
def wholeDigits? : List Nat → Option (List Nat)
  | [] | 0 :: _ :: _ => none
  | ds => some ds

theorem takesPrefix_whole? : TakesPrefix whole? := by
  have h := takesPrefix_digits.bind fun ds => takesPrefix_nothing (wholeDigits? ds)
  refine cast (congrArg TakesPrefix (funext fun s => ?_)) h
  rcases hd : digits s with ⟨ds, rest⟩
  rw [whole?, hd]
  rcases ds with _ | ⟨_ | n, _ | ⟨d, ds⟩⟩ <;> rfl

/-- At least one digit. -/
theorem takesPrefix_someDigits {α : Type} (f : List Nat → α) :
    TakesPrefix fun s => match digits s with
      | ([], _) => none
      | (ds, rest) => some (f ds, rest) := by
  have h := takesPrefix_digits.bind fun ds =>
    takesPrefix_nothing (if ds.isEmpty then none else some (f ds))
  refine cast (congrArg TakesPrefix (funext fun s => ?_)) h
  rcases hd : digits s with ⟨_ | ⟨d, ds⟩, rest⟩ <;> rfl

theorem takesPrefix_fraction? : TakesPrefix fraction? := by
  refine .of_head (· = '.') ?_ (takesPrefix_nothing (some none)) ?_
  · rintro c rfl
    exact takesPrefix_someDigits some
  · intro s hs
    rcases s with _ | ⟨c, s⟩
    · rfl
    · have hc : c ≠ '.' := hs c rfl
      simp [fraction?, hc]

theorem takesPrefix_amount (sign : Nat → Int) :
    TakesPrefix fun s => exponent?.amount s sign :=
  takesPrefix_someDigits fun ds => some (sign (ofDigits 10 ds))

theorem takesPrefix_exponent? : TakesPrefix exponent? := by
  refine .of_head (fun c => c = 'e' ∨ c = 'E') ?_ (takesPrefix_nothing (some none)) ?_
  · intro c hc
    refine .of_head (fun c => c = '-' ∨ c = '+') ?_ (takesPrefix_amount fun n => n) ?_
    · rintro d (rfl | rfl)
      · simpa only [exponent?, hc, if_true] using takesPrefix_amount fun n => -(n : Int)
      · simpa only [exponent?, hc, if_true] using takesPrefix_amount fun n => n
    · intro s hs
      rcases s with _ | ⟨d, s⟩
      · simp only [exponent?, hc, if_true]
      · have hd : d ≠ '-' ∧ d ≠ '+' := not_or.mp (hs d rfl)
        simp [exponent?, hc, hd]
  · intro s hs
    rcases s with _ | ⟨c, s⟩
    · rfl
    · have hc : ¬ (c = 'e' ∨ c = 'E') := hs c rfl
      simp [exponent?, hc]

theorem takesPrefix_unsigned (negative : Bool) : TakesPrefix fun s =>
    (whole? s).bind fun w => (fraction? w.2).bind fun f => (exponent? f.2).bind fun e =>
      some ((⟨negative, w.1, f.1, e.1⟩ : NumberText), e.2) := by
  have hexponent : ∀ w f, TakesPrefix fun s => (exponent? s).bind fun e =>
      some ((⟨negative, w, f, e.1⟩ : NumberText), e.2) := fun w f =>
    takesPrefix_exponent?.bind fun e => takesPrefix_nothing (some (NumberText.mk negative w f e))
  have hfraction : ∀ w, TakesPrefix fun s => (fraction? s).bind fun f =>
      (exponent? f.2).bind fun e => some ((⟨negative, w, f.1, e.1⟩ : NumberText), e.2) :=
    fun w => takesPrefix_fraction?.bind (hexponent w)
  exact takesPrefix_whole?.bind hfraction

theorem takesPrefix_number? : TakesPrefix number? := by
  refine .of_head (· = '-') ?_ (takesPrefix_unsigned false) ?_
  · rintro c rfl
    exact takesPrefix_unsigned true
  · intro s hs
    rcases s with _ | ⟨c, s⟩
    · rfl
    · have hc : c ≠ '-' := hs c rfl
      simp [number?, hc]

/-! Strings. -/

/-- The low surrogate that a text starts with an escape of. -/
def lowUnit? (s : List Char) : Option Nat :=
  match s.take 6 with
  | ['\\', 'u', a, b, c, d] => (unit? a b c d).filter isLowSurrogate
  | _ => none

theorem lowUnit?_of_quote {s : List Char} (h : '"' ∈ s.take 6) : lowUnit? s = none := by
  unfold lowUnit?
  split
  · next a b c d heq =>
    have hquote : hexDigit? '"' = none := by decide
    rw [heq] at h
    simp only [List.mem_cons, List.not_mem_nil, or_false] at h
    rcases h with h | h | rfl | rfl | rfl | rfl
    · cases h
    · cases h
    · simp [unit?, hquote]
    · simp [unit?, hquote]
    · simp [unit?, hquote]
    · simp [unit?, hquote]
  · rfl

/-- What follows a quote has no part in an escape before it. -/
theorem lowUnit?_append (used rest rest' : List Char) :
    lowUnit? (used ++ '"' :: rest) = lowUnit? (used ++ '"' :: rest') := by
  by_cases hlength : 6 ≤ used.length
  · rw [lowUnit?, lowUnit?, List.take_append_of_le_length hlength,
      List.take_append_of_le_length hlength]
  · have hquote : ∀ rest, '"' ∈ (used ++ '"' :: rest).take 6 := by
      intro rest
      obtain ⟨n, hn⟩ : ∃ n, 6 - used.length = n + 1 := ⟨5 - used.length, by omega⟩
      rw [List.take_append, hn, List.take_succ_cons]
      exact List.mem_append_right _ List.mem_cons_self
    rw [lowUnit?_of_quote (hquote rest), lowUnit?_of_quote (hquote rest')]

theorem lowUnit?_of_no_escape {s : List Char}
    (h : ∀ a b c d t, s = '\\' :: 'u' :: a :: b :: c :: d :: t → False) : lowUnit? s = none := by
  unfold lowUnit?
  split
  · next a b c d heq =>
    have hs := List.take_append_drop 6 s
    rw [heq] at hs
    exact absurd hs.symm (h a b c d _)
  · rfl

/-- Half a pair on its own spoils a string. -/
theorem stringBody?_of_high {a b c d : Char} {n : Nat} {s : List Char} (hn : unit? a b c d = some n)
    (hhigh : isHighSurrogate n = true) (hs : lowUnit? s = none) :
    stringBody? ('\\' :: 'u' :: a :: b :: c :: d :: s) = spoil (stringBody? s) := by
  rw [stringBody?, hn]
  simp only [hhigh, if_true]
  split
  · next e f g h t =>
    cases hm : unit? e f g h with
    | none => simp [stringBody?, hm, spoil]
    | some m =>
      have hlow : isLowSurrogate m = false := by simpa [lowUnit?, hm, Option.filter] using hs
      simp [hlow]
  · rfl

/-- What is read of a string ends with its closing quote, and is read alike before any text. -/
def Closes (s : List Char) : Prop :=
  ∀ text rest, stringBody? s = some (text, rest) → ∃ used, s = used ++ '"' :: rest ∧
    ∀ rest', stringBody? (used ++ '"' :: rest') = some (text, rest')

/-- Characters before the rest of a string that change what it holds in any case do not change
where it closes. -/
theorem Closes.after {s : List Char} (hs : Closes s) (lead : List Char)
    (change : Option (List Char) → Option (List Char))
    (hlead : ∀ s', lowUnit? s' = lowUnit? s →
      stringBody? (lead ++ s') = (stringBody? s').map fun r => (change r.1, r.2)) :
    Closes (lead ++ s) := by
  intro text rest h
  rw [hlead s rfl] at h
  obtain ⟨⟨text, rest⟩, htext, heq⟩ := Option.map_eq_some_iff.mp h
  cases heq
  obtain ⟨used, rfl, hused⟩ := hs text rest htext
  refine ⟨lead ++ used, (List.append_assoc ..).symm, fun rest' => ?_⟩
  rw [List.append_assoc, hlead _ (lowUnit?_append used rest' rest), hused]
  rfl

theorem closes_of_eq_none {s : List Char} (h : stringBody? s = none) : Closes s := by
  intro text rest htext
  rw [h] at htext
  cases htext

theorem closes (s : List Char) : Closes s := by
  fun_induction stringBody? s with
  | case1 => exact closes_of_eq_none rfl
  | case2 s =>
    intro text rest h
    cases h
    exact ⟨[], rfl, fun rest' => rfl⟩
  | case3 a b c d s hn => exact closes_of_eq_none (by simp [stringBody?, hn])
  | case4 a b c d n hn hhigh e f g h s hm =>
    exact closes_of_eq_none (by simp [stringBody?, hn, hhigh, hm])
  | case5 a b c d n hn hhigh e f g h s m hm hlow ih =>
    refine ih.after ['\\', 'u', a, b, c, d, '\\', 'u', e, f, g, h]
      (Option.map (pairOf n m :: ·)) fun s' _ => ?_
    simp [stringBody?, hn, hhigh, hm, hlow, push]
  | case6 a b c d n hn hhigh e f g h s m hm hlow ih =>
    refine ih.after ['\\', 'u', a, b, c, d] (fun _ => none) fun s' hs' => ?_
    refine stringBody?_of_high hn hhigh (hs'.trans ?_)
    simp [lowUnit?, hm, hlow]
  | case7 a b c d n hn hhigh s hs ih =>
    refine ih.after ['\\', 'u', a, b, c, d] (fun _ => none) fun s' hs' => ?_
    exact stringBody?_of_high hn hhigh (hs'.trans (lowUnit?_of_no_escape hs))
  | case8 a b c d s n hn hhigh hlow ih =>
    refine ih.after ['\\', 'u', a, b, c, d] (fun _ => none) fun s' _ => ?_
    simp [stringBody?, hn, hhigh, hlow, spoil]
  | case9 a b c d s n hn hhigh hlow ih =>
    refine ih.after ['\\', 'u', a, b, c, d] (Option.map (Char.ofNat n :: ·)) fun s' _ => ?_
    simp [stringBody?, hn, hhigh, hlow, push]
  | case10 c s hc hn =>
    exact closes_of_eq_none (by simp [stringBody?, hn])
  | case11 c s hc e he ih =>
    refine ih.after ['\\', c] (Option.map (e :: ·)) fun s' _ => ?_
    unfold shortEscape? at he
    split at he <;> cases he <;> simp [stringBody?, shortEscape?, push]
  | case12 s hquote hunit hescape ih =>
    refine ih.after [fault] (fun _ => none) fun s' _ => ?_
    simp [stringBody?, fault, spoil]
  | case13 c s hquote hunit hescape hfault hcontrol =>
    exact closes_of_eq_none (by simp [stringBody?, hfault, hcontrol])
  | case14 c s hquote hunit hescape hfault hcontrol ih =>
    by_cases hc : c = '\\'
    · subst hc
      rcases s with _ | ⟨d, s⟩
      · exact closes_of_eq_none (by decide)
      · exact absurd rfl (hescape d s rfl)
    · refine ih.after [c] (Option.map (c :: ·)) fun s' _ => ?_
      simp [stringBody?, hc, hfault, hcontrol, push]

theorem string?_closes {s : List Char} {text : Option String} {rest : List Char}
    (h : string? s = some (text, rest)) : ∃ used, s = used ++ '"' :: rest ∧
      ∀ rest', string? (used ++ '"' :: rest') = some (text, rest') := by
  obtain ⟨⟨chars, rest⟩, hbody, heq⟩ := Option.map_eq_some_iff.mp h
  cases heq
  obtain ⟨used, hs, hused⟩ := closes s chars rest hbody
  exact ⟨used, hs, fun rest' => by rw [string?, hused]; rfl⟩

end Document

end ArchChange
