import ArchChange.Proofs.Json.Tokens
/-!
What the reader of documents takes off the front of a text. It depends on what it takes alone, and
for a number on the character that follows; so an object is read alike wherever it stands.
-/
namespace ArchChange

namespace Document

theorem skipSpace_append {spaces : List Char} (h : spaces.all isSpace = true) (s : List Char) :
    skipSpace (spaces ++ s) = skipSpace s := by
  induction spaces with
  | nil => rfl
  | cons c spaces ih =>
    simp only [List.all_cons, Bool.and_eq_true] at h
    rw [skipSpace, List.cons_append, List.dropWhile_cons_of_pos h.1]
    exact ih h.2

/-- Skipping goes as far in any text that goes on with the same character. -/
theorem exists_spaces (s : List Char) : ∃ spaces, spaces.all isSpace = true ∧
    s = spaces ++ skipSpace s ∧
    ∀ s', s'.head? = (skipSpace s).head? → skipSpace (spaces ++ s') = s' := by
  refine ⟨s.takeWhile isSpace, List.all_takeWhile, (List.takeWhile_append_dropWhile).symm,
    fun s' hs' => ?_⟩
  have hhead := List.head?_dropWhile_not isSpace s
  rw [skipSpace_append List.all_takeWhile]
  rw [skipSpace] at hs'
  rw [← hs'] at hhead
  rcases s' with _ | ⟨c, s'⟩
  · rfl
  · exact List.dropWhile_cons_of_neg (by simpa using hhead)

theorem exists_of_skipSpace {s rest : List Char} {c : Char} (h : skipSpace s = c :: rest) :
    ∃ spaces, spaces.all isSpace = true ∧ s = spaces ++ c :: rest ∧
      ∀ rest', skipSpace (spaces ++ c :: rest') = c :: rest' := by
  obtain ⟨spaces, hall, hs, hspaces⟩ := exists_spaces s
  rw [h] at hs hspaces
  exact ⟨spaces, hall, hs, fun rest' => hspaces _ rfl⟩

/-- With enough fuel the reader finds the same before any text, and for a number before any text
that goes on with the same character. -/
def TakesValue (fuel : Nat) : Prop :=
  ∀ s d rest, value? fuel s = some (d, rest) → ∃ used, s = used ++ rest ∧
    ∀ fuel' rest', used.length < fuel' → ((∃ t, d = number t) → rest'.head? = rest.head?) →
      value? fuel' (used ++ rest') = some (d, rest')

/-- What the reader takes ends with the character, and with enough fuel it finds the same before
any text. -/
def TakesUpTo {α : Type} (close : Char) (read : Nat → List Char → Option (α × List Char))
    (fuel : Nat) : Prop :=
  ∀ s a rest, read fuel s = some (a, rest) → ∃ used, s = used ++ close :: rest ∧
    ∀ fuel' rest', used.length + 1 < fuel' → read fuel' (used ++ close :: rest') = some (a, rest')

theorem head?_append_cons (s t t' : List Char) (c : Char) :
    (s ++ c :: t).head? = (s ++ c :: t').head? := by
  cases s <;> rfl

theorem takesUpTo_items? {fuel : Nat} (hv : TakesValue fuel) (hi : TakesUpTo ']' items? fuel) :
    TakesUpTo ']' items? (fuel + 1) := by
  intro s ds rest h
  rw [items?] at h
  obtain ⟨⟨v, middle⟩, hvalue, hnext⟩ := Option.bind_eq_some_iff.mp h
  obtain ⟨first, rfl, hfirst⟩ := hv s v middle hvalue
  dsimp only at hnext
  split at hnext
  · next more hskip =>
    obtain ⟨⟨vs, rest⟩, hitems, heq⟩ := Option.map_eq_some_iff.mp hnext
    cases heq
    obtain ⟨spaces, -, rfl, hspaces⟩ := exists_of_skipSpace hskip
    obtain ⟨last, rfl, hlast⟩ := hi more vs rest hitems
    refine ⟨first ++ spaces ++ ',' :: last, by simp, fun fuel' rest' hfuel => ?_⟩
    simp only [List.length_append, List.length_cons] at hfuel
    obtain ⟨k, rfl⟩ : ∃ k, fuel' = k + 1 := ⟨fuel' - 1, by omega⟩
    have hread := hfirst k (spaces ++ ',' :: (last ++ ']' :: rest')) (by omega)
      fun _ => head?_append_cons ..
    have hrest := hlast k rest' (by omega)
    simp [items?, hread, hspaces, hrest]
  · next hskip =>
    cases hnext
    obtain ⟨spaces, -, rfl, hspaces⟩ := exists_of_skipSpace hskip
    refine ⟨first ++ spaces, by simp, fun fuel' rest' hfuel => ?_⟩
    simp only [List.length_append] at hfuel
    obtain ⟨k, rfl⟩ : ∃ k, fuel' = k + 1 := ⟨fuel' - 1, by omega⟩
    have hread := hfirst k (spaces ++ ']' :: rest') (by omega) fun _ => head?_append_cons ..
    simp [items?, hread, hspaces]
  · cases hnext

theorem takesUpTo_fields? {fuel : Nat} (hv : TakesValue fuel) (hf : TakesUpTo '}' fields? fuel) :
    TakesUpTo '}' fields? (fuel + 1) := by
  intro s fs rest h
  rw [fields?] at h
  split at h
  · next name hskip =>
    obtain ⟨before, -, rfl, hbefore⟩ := exists_of_skipSpace hskip
    obtain ⟨⟨key, middle⟩, hkey, hcolon⟩ := Option.bind_eq_some_iff.mp h
    obtain ⟨name, rfl, hname⟩ := string?_closes hkey
    dsimp only at hcolon
    split at hcolon
    · next text hskip =>
      obtain ⟨between, -, rfl, hbetween⟩ := exists_of_skipSpace hskip
      obtain ⟨⟨v, middle⟩, hvalue, hnext⟩ := Option.bind_eq_some_iff.mp hcolon
      obtain ⟨first, rfl, hfirst⟩ := hv text v middle hvalue
      dsimp only at hnext
      split at hnext
      · next more hskip =>
        obtain ⟨⟨vs, rest⟩, hfields, heq⟩ := Option.map_eq_some_iff.mp hnext
        cases heq
        obtain ⟨spaces, -, rfl, hspaces⟩ := exists_of_skipSpace hskip
        obtain ⟨last, rfl, hlast⟩ := hf more vs rest hfields
        refine ⟨before ++ '"' :: (name ++ '"' :: (between ++ ':' :: (first ++ (spaces ++
          ',' :: last)))), by simp, fun fuel' rest' hfuel => ?_⟩
        simp only [List.length_append, List.length_cons] at hfuel
        obtain ⟨k, rfl⟩ : ∃ k, fuel' = k + 1 := ⟨fuel' - 1, by omega⟩
        have hread := hfirst k (spaces ++ ',' :: (last ++ '}' :: rest')) (by omega)
          fun _ => head?_append_cons ..
        have hrest := hlast k rest' (by omega)
        simp [fields?, hbefore, hname, hbetween, hread, hspaces, hrest]
      · next hskip =>
        cases hnext
        obtain ⟨spaces, -, rfl, hspaces⟩ := exists_of_skipSpace hskip
        refine ⟨before ++ '"' :: (name ++ '"' :: (between ++ ':' :: (first ++ spaces))), by simp,
          fun fuel' rest' hfuel => ?_⟩
        simp only [List.length_append, List.length_cons] at hfuel
        obtain ⟨k, rfl⟩ : ∃ k, fuel' = k + 1 := ⟨fuel' - 1, by omega⟩
        have hread := hfirst k (spaces ++ '}' :: rest') (by omega) fun _ => head?_append_cons ..
        simp [fields?, hbefore, hname, hbetween, hread, hspaces]
      · cases hnext
    · cases hcolon
  · cases h

/-- What stands in brackets is read alike before any text. -/
theorem TakesUpTo.inBrackets {α : Type} {close : Char}
    {read : Nat → List Char → Option (α × List Char)} {fuel : Nat} (hr : TakesUpTo close read fuel)
    {s rest : List Char} {a : α} (hopen : ∀ t, skipSpace s = close :: t → False)
    (h : read fuel (skipSpace s) = some (a, rest)) :
    ∃ used, s = used ++ close :: rest ∧ ∀ fuel' rest', used.length + 1 < fuel' →
      (∀ t, skipSpace (used ++ close :: rest') = close :: t → False) ∧
      read fuel' (skipSpace (used ++ close :: rest')) = some (a, rest') := by
  obtain ⟨spaces, -, hs, hspaces⟩ := exists_spaces s
  obtain ⟨used, hskip, hused⟩ := hr _ a rest h
  rw [hskip] at hs hspaces hopen
  refine ⟨spaces ++ used, by rw [hs, List.append_assoc], fun fuel' rest' hfuel => ?_⟩
  rw [List.append_assoc, hspaces _ (head?_append_cons ..)]
  rw [List.length_append] at hfuel
  refine ⟨fun t ht => ?_, hused fuel' rest' (by omega)⟩
  rcases used with _ | ⟨c, used⟩
  · exact hopen rest rfl
  · cases ht
    exact hopen _ rfl

/-- No number starts like another value. -/
theorem value?_of_number {s : List Char} {r : NumberText × List Char}
    (h : number? (skipSpace s) = some r) (fuel : Nat) :
    value? (fuel + 1) s = some (number r.1, r.2) := by
  rw [value?]
  split
  case h_7 => rw [h]; rfl
  all_goals
    next hskip =>
      rw [hskip] at h
      simp [number?, whole?, digits, digit?] at h

theorem exists_takes_number {s rest : List Char} {text : NumberText}
    (h : number? (skipSpace s) = some (text, rest)) :
    ∃ used, s = used ++ rest ∧ ∀ fuel rest', used.length < fuel → rest'.head? = rest.head? →
      value? fuel (used ++ rest') = some (number text, rest') := by
  obtain ⟨spaces, -, hs, hspaces⟩ := exists_spaces s
  obtain ⟨used, hskip, hused⟩ := takesPrefix_number? _ text rest h
  rw [hskip] at hs hspaces
  refine ⟨spaces ++ used, by rw [hs, List.append_assoc], fun fuel rest' hfuel hhead => ?_⟩
  obtain ⟨k, rfl⟩ : ∃ k, fuel = k + 1 := ⟨fuel - 1, by omega⟩
  rw [List.append_assoc]
  refine value?_of_number (r := (text, rest')) ?_ k
  rw [hspaces _ (by rw [List.head?_append, List.head?_append, hhead])]
  exact hused rest' hhead

/-- A value that is told from its first character and read alike before any text. -/
theorem exists_takes {s rest : List Char} {c : Char} {d : Document} (used : List Char)
    (hs : skipSpace s = c :: (used ++ rest))
    (h : ∀ fuel s' rest', used.length < fuel → skipSpace s' = c :: (used ++ rest') →
      value? (fuel + 1) s' = some (d, rest')) :
    ∃ used, s = used ++ rest ∧ ∀ fuel rest', used.length < fuel →
      ((∃ t, d = number t) → rest'.head? = rest.head?) →
      value? fuel (used ++ rest') = some (d, rest') := by
  obtain ⟨spaces, -, rfl, hspaces⟩ := exists_of_skipSpace hs
  refine ⟨spaces ++ c :: used, by simp, fun fuel rest' hfuel _ => ?_⟩
  simp only [List.length_append, List.length_cons] at hfuel
  obtain ⟨k, rfl⟩ : ∃ k, fuel = k + 1 := ⟨fuel - 1, by omega⟩
  rw [List.append_assoc]
  exact h k _ rest' (by omega) (hspaces _)

/-- An object is read alike wherever its text stands, whatever follows its closing brace. -/
theorem TakesUpTo.object {fuel : Nat} (hf : TakesUpTo '}' fields? fuel) {s t rest : List Char}
    {d : Document} (hs : skipSpace s = '{' :: t) (h : value? (fuel + 1) s = some (d, rest)) :
    ∃ inner, t = inner ++ '}' :: rest ∧ ∀ fuel' s' rest', inner.length + 1 < fuel' →
      skipSpace s' = '{' :: (inner ++ '}' :: rest') → value? (fuel' + 1) s' = some (d, rest') := by
  simp only [value?, hs] at h
  split at h
  · next hempty =>
    cases h
    obtain ⟨spaces, -, rfl, hspaces⟩ := exists_of_skipSpace hempty
    refine ⟨spaces, rfl, fun k s' rest' _ hs' => ?_⟩
    simp [value?, hs', hspaces]
  · next hfilled =>
    obtain ⟨⟨fields, rest⟩, hfields, heq⟩ := Option.map_eq_some_iff.mp h
    cases heq
    obtain ⟨used, rfl, hused⟩ := hf.inBrackets hfilled hfields
    refine ⟨used, rfl, fun k s' rest' hk hs' => ?_⟩
    obtain ⟨hfilled', hread⟩ := hused k rest' hk
    simp [value?, hs', hread]

theorem takesValue_succ {fuel : Nat} (hi : TakesUpTo ']' items? fuel)
    (hf : TakesUpTo '}' fields? fuel) : TakesValue (fuel + 1) := by
  intro s d rest hvalue
  have h := hvalue
  rw [value?] at h
  split at h
  · next hskip =>
    cases h
    exact exists_takes ['u', 'l', 'l'] hskip fun k s' rest' _ hs' => by simp [value?, hs']
  · next hskip =>
    cases h
    exact exists_takes ['r', 'u', 'e'] hskip fun k s' rest' _ hs' => by simp [value?, hs']
  · next hskip =>
    cases h
    exact exists_takes ['a', 'l', 's', 'e'] hskip fun k s' rest' _ hs' => by simp [value?, hs']
  · next hskip =>
    obtain ⟨⟨text, rest⟩, hstring, heq⟩ := Option.map_eq_some_iff.mp h
    cases heq
    obtain ⟨used, rfl, hused⟩ := string?_closes hstring
    refine exists_takes (used ++ ['"']) (by simpa using hskip) fun k s' rest' _ hs' => ?_
    simp [value?, hs', hused]
  · next hskip =>
    split at h
    · next hempty =>
      cases h
      obtain ⟨spaces, -, rfl, hspaces⟩ := exists_of_skipSpace hempty
      refine exists_takes (spaces ++ [']']) (by simpa using hskip) fun k s' rest' _ hs' => ?_
      simp [value?, hs', hspaces]
    · next hfilled =>
      obtain ⟨⟨items, rest⟩, hitems, heq⟩ := Option.map_eq_some_iff.mp h
      cases heq
      obtain ⟨used, rfl, hused⟩ := hi.inBrackets hfilled hitems
      refine exists_takes (used ++ [']']) (by simpa using hskip) fun k s' rest' hk hs' => ?_
      rw [List.length_append] at hk
      obtain ⟨hfilled', hread⟩ := hused k rest' hk
      simp [value?, hs', hread]
  · next hskip =>
    obtain ⟨inner, rfl, hinner⟩ := hf.object hskip hvalue
    refine exists_takes (inner ++ ['}']) (by simpa using hskip) fun k s' rest' hk hs' => ?_
    rw [List.length_append] at hk
    exact hinner k s' rest' hk (by simpa using hs')
  · obtain ⟨⟨text, rest⟩, hnumber, heq⟩ := Option.map_eq_some_iff.mp h
    cases heq
    obtain ⟨used, hs, hused⟩ := exists_takes_number hnumber
    exact ⟨used, hs, fun fuel' rest' hfuel hhead => hused fuel' rest' hfuel (hhead ⟨text, rfl⟩)⟩

/-- What is read of a value, of items or of fields is read alike wherever it stands. -/
theorem takes (fuel : Nat) :
    TakesValue fuel ∧ TakesUpTo ']' items? fuel ∧ TakesUpTo '}' fields? fuel := by
  induction fuel with
  | zero =>
    refine ⟨fun s d rest h => ?_, fun s ds rest h => ?_, fun s fs rest h => ?_⟩
    · cases h
    · cases h
    · cases h
  | succ fuel ih =>
    obtain ⟨hv, hi, hf⟩ := ih
    exact ⟨takesValue_succ hi hf, takesUpTo_items? hv hi, takesUpTo_fields? hv hf⟩

/-- Nothing else starts like an object. -/
theorem exists_brace {fuel : Nat} {s rest : List Char} {fields : List (Option String × Document)}
    (h : value? (fuel + 1) s = some (object fields, rest)) : ∃ t, skipSpace s = '{' :: t := by
  rw [value?] at h
  split at h
  case h_6 => exact ⟨_, ‹_›⟩
  case h_5 => split at h <;> simp at h
  all_goals simp at h

/-- An object at the start of a text is read again from its opening brace on, whatever follows its
closing brace. -/
theorem exists_of_readFirst? {s rest : List Char} {fields : List (Option String × Document)}
    (h : readFirst? s = some (object fields, rest)) : ∃ spaces inner, spaces.all isSpace = true ∧
      s = spaces ++ '{' :: (inner ++ '}' :: rest) ∧
      ∀ rest', readFirst? ('{' :: (inner ++ '}' :: rest')) = some (object fields, rest') := by
  obtain ⟨t, ht⟩ := exists_brace h
  obtain ⟨spaces, hall, rfl, -⟩ := exists_of_skipSpace ht
  obtain ⟨inner, rfl, hinner⟩ := (takes _).2.2.object ht h
  refine ⟨spaces, inner, hall, rfl, fun rest' => ?_⟩
  refine hinner _ _ rest' ?_ rfl
  simp only [List.length_append, List.length_cons]
  omega

end Document

namespace Json

/-- A text from the opening to the closing brace of an object, which is read from it whatever
follows. -/
structure ObjectText (text : List Char) (fields : List (String × Json)) : Prop where
  braces : ∃ inner, text = '{' :: (inner ++ ['}'])
  readFirst? : ∃ d : Document, d.value = some (.obj fields) ∧
    ∀ rest, Document.readFirst? (text ++ rest) = some (d, rest)

variable {text : List Char} {fields : List (String × Json)}

theorem ObjectText.firstOfText? (h : ObjectText text fields) (rest : List Char) :
    firstOfText? (text ++ rest) = some (.obj fields) := by
  obtain ⟨d, hd, hread⟩ := h.readFirst?
  rw [Json.firstOfText?, hread]
  exact hd

theorem ObjectText.ofText? (h : ObjectText text fields) : ofText? text = some (.obj fields) := by
  obtain ⟨d, hd, hread⟩ := h.readFirst?
  have htext := hread []
  rw [List.append_nil] at htext
  rw [Json.ofText?, Document.read?, htext]
  exact hd

/-- Only an object has an object as its value. -/
theorem exists_object_of_value {d : Document} (h : d.value = some (.obj fields)) :
    ∃ fs, d = .object fs := by
  cases d with
  | object fs => exact ⟨fs, rfl⟩
  | _ => simp [Document.value, Document.select?, maxDepth] at h

theorem all_isSpace_of_skipSpace {s : List Char} (h : (Document.skipSpace s).isEmpty = true) :
    s.all Document.isSpace = true := by
  obtain ⟨spaces, hall, hs, -⟩ := Document.exists_spaces s
  rw [List.isEmpty_iff.mp h, List.append_nil] at hs
  rw [hs]
  exact hall

/-- A text that consists of an object has blanks of JSON around it at most. -/
theorem exists_objectText {s : List Char} (h : ofText? s = some (.obj fields)) :
    ∃ before text after, before.all Document.isSpace = true ∧ after.all Document.isSpace = true ∧
      s = before ++ (text ++ after) ∧ ObjectText text fields := by
  obtain ⟨d, hread, hd⟩ := Option.bind_eq_some_iff.mp h
  obtain ⟨⟨d, rest⟩, hfirst, hrest⟩ := Option.bind_eq_some_iff.mp hread
  dsimp only at hrest
  split at hrest
  · next hblank =>
    cases hrest
    obtain ⟨fs, rfl⟩ := exists_object_of_value hd
    obtain ⟨spaces, inner, hall, rfl, hinner⟩ := Document.exists_of_readFirst? hfirst
    refine ⟨spaces, '{' :: (inner ++ ['}']), rest, hall, all_isSpace_of_skipSpace hblank, by simp,
      ⟨inner, rfl⟩, .object fs, hd, fun rest' => ?_⟩
    simpa using hinner rest'
  · cases hrest

end Json

end ArchChange
