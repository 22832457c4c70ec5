import ArchChange.Proofs.Json.Literals
import Mathlib.Data.List.Forall2
/-!
Reading undoes printing. What is printed of a value without doubles is read as one document,
whatever follows it but the rest of a number.
-/
namespace ArchChange

namespace Document

/-! Values. -/

section

variable {α : Type} {read : Nat → List Char → Option (α × List Char)}
  {all : Nat → List Char → Option (List α × List Char)} {close : Char}

/-- The text is read as `a`, whatever follows it but the rest of a number. -/
structure Spells (read : Nat → List Char → Option (α × List Char)) (text : List Char) (a : α) :
    Prop where
  sound : fault ∉ text
  read : ∀ fuel rest, text.length < fuel → Ends rest → read fuel (text ++ rest) = some (a, rest)

theorem Spells.of_succ {text : List Char} {a : α} (sound : fault ∉ text)
    (h : ∀ fuel rest, text.length ≤ fuel → Ends rest →
      read (fuel + 1) (text ++ rest) = some (a, rest)) : Spells read text a := by
  refine ⟨sound, fun fuel rest hfuel hrest => ?_⟩
  obtain ⟨k, rfl⟩ : ∃ k, fuel = k + 1 := ⟨fuel - 1, by omega⟩
  exact h k rest (Nat.le_of_lt_succ hfuel) hrest

/-- All entries up to a closing bracket are read one by one, with commas between them and blanks
wherever they like. -/
structure ReadsAll (read : Nat → List Char → Option (α × List Char))
    (all : Nat → List Char → Option (List α × List Char)) (close : Char) : Prop where
  skip : ∀ fuel spaces s, spaces.all isSpace = true → all fuel (spaces ++ s) = all fuel s
  more : ∀ {fuel s a rest next}, read fuel s = some (a, rest) → skipSpace rest = ',' :: next →
    all (fuel + 1) s = (all fuel next).map fun r => (a :: r.1, r.2)
  last : ∀ {fuel s a rest next}, read fuel s = some (a, rest) → skipSpace rest = close :: next →
    all (fuel + 1) s = some ([a], next)

theorem value?_skipSpace (fuel : Nat) {spaces : List Char} (h : spaces.all isSpace = true)
    (s : List Char) : value? fuel (spaces ++ s) = value? fuel s := by
  cases fuel with
  | zero => rfl
  | succ fuel => rw [value?, value?, skipSpace_append h]

theorem ReadsAll.all_skipSpace (hall : ReadsAll read all close) (fuel : Nat) (s : List Char) :
    all fuel (skipSpace s) = all fuel s := by
  obtain ⟨spaces, hspaces, hs, -⟩ := exists_spaces s
  conv_rhs => rw [hs]
  exact (hall.skip fuel spaces _ hspaces).symm

/-- Entries with a comma and a blank line between each two of them are all read. -/
theorem ReadsAll.intercalate (hall : ReadsAll read all close) (hclose : isSpace close = false)
    {line indent : List Char}
    (hline : line.all isSpace = true) (hindent : indent.all isSpace = true)
    {texts : List (List Char)} {as : List α} (h : List.Forall₂ (Spells read) texts as)
    (hne : texts ≠ []) (fuel : Nat) (rest : List Char)
    (hfuel : ((',' :: line).intercalate texts).length + 1 < fuel) :
    all fuel ((',' :: line).intercalate texts ++ '\n' :: (indent ++ close :: rest)) =
      some (as, rest) := by
  induction h generalizing fuel with
  | nil => exact absurd rfl hne
  | @cons text a texts as htext htexts ih =>
    obtain ⟨k, rfl⟩ : ∃ k, fuel = k + 1 := ⟨fuel - 1, by omega⟩
    cases texts with
    | nil =>
      cases htexts
      rw [List.intercalate_singleton] at hfuel ⊢
      have hread := htext.read k ('\n' :: (indent ++ close :: rest)) (by omega)
        (ends_of_isSpace rfl _)
      refine hall.last hread ?_
      rw [skipSpace_cons rfl, skipSpace_append hindent, skipSpace_of_not hclose]
    | cons text' texts =>
      rw [List.intercalate_cons_cons] at hfuel ⊢
      simp only [List.length_append, List.length_cons] at hfuel
      have hrest := ih (List.cons_ne_nil _ _) k (by omega)
      have hread := htext.read k (',' :: (line ++ ((',' :: line).intercalate (text' :: texts) ++
        '\n' :: (indent ++ close :: rest)))) (by omega) (ends_comma _)
      have hcomma := hall.more hread (skipSpace_of_not (by decide) _)
      rw [hall.skip k line _ hline, hrest] at hcomma
      rw [List.append_assoc, List.append_assoc]
      exact hcomma

end

/-- A field of an object. -/
def field? (fuel : Nat) (s : List Char) : Option ((Option String × Document) × List Char) :=
  match skipSpace s with
  | '"' :: rest => do
    let (key, rest) ← string? rest
    match skipSpace rest with
    | ':' :: rest => (value? fuel rest).map fun r => ((key, r.1), r.2)
    | _ => none
  | _ => none

theorem readsAll_items? : ReadsAll value? items? ']' where
  skip fuel spaces s h := by
    cases fuel with
    | zero => rfl
    | succ fuel => rw [items?, items?, value?_skipSpace fuel h]
  more hread hskip := by simp [items?, hread, hskip]
  last hread hskip := by simp [items?, hread, hskip]

theorem exists_of_field? {fuel : Nat} {s rest : List Char} {f : Option String × Document}
    (h : field? fuel s = some (f, rest)) : ∃ name text value, skipSpace s = '"' :: name ∧
      string? name = some (f.1, text) ∧ skipSpace text = ':' :: value ∧
      value? fuel value = some (f.2, rest) := by
  unfold field? at h
  split at h
  · next name hname =>
    obtain ⟨⟨key, text⟩, hkey, h⟩ := Option.bind_eq_some_iff.mp h
    dsimp only at h
    split at h
    · next value hvalue =>
      obtain ⟨⟨d, rest⟩, hd, heq⟩ := Option.map_eq_some_iff.mp h
      cases heq
      exact ⟨name, text, value, hname, hkey, hvalue, hd⟩
    · cases h
  · cases h

theorem readsAll_fields? : ReadsAll field? fields? '}' where
  skip fuel spaces s h := by
    cases fuel with
    | zero => rfl
    | succ fuel => rw [fields?, fields?, skipSpace_append h]
  more hread hskip := by
    obtain ⟨name, text, value, hname, hkey, hvalue, hd⟩ := exists_of_field? hread
    simp [fields?, hname, hkey, hvalue, hd, hskip]
  last hread hskip := by
    obtain ⟨name, text, value, hname, hkey, hvalue, hd⟩ := exists_of_field? hread
    simp [fields?, hname, hkey, hvalue, hd, hskip]

/-- Items that can be read do not start with the closing bracket. -/
theorem value?_array {fuel : Nat} {s rest : List Char} {ds : List Document}
    (h : items? fuel s = some (ds, rest)) :
    value? (fuel + 1) ('[' :: s) = some (array ds, rest) := by
  have hopen : skipSpace ('[' :: s) = '[' :: s := skipSpace_of_not (by decide) s
  simp only [value?, hopen]
  split
  · next hskip =>
    rw [← readsAll_items?.all_skipSpace, hskip] at h
    rcases fuel with _ | _ | fuel
    · cases h
    · cases h
    · simp [items?, value?, number?, whole?, digits, digit?, skipSpace, isSpace] at h
  · rw [readsAll_items?.all_skipSpace, h]
    rfl

/-- Fields that can be read do not start with the closing brace. -/
theorem value?_object {fuel : Nat} {s rest : List Char}
    {fs : List (Option String × Document)} (h : fields? fuel s = some (fs, rest)) :
    value? (fuel + 1) ('{' :: s) = some (object fs, rest) := by
  have hopen : skipSpace ('{' :: s) = '{' :: s := skipSpace_of_not (by decide) s
  simp only [value?, hopen]
  split
  · next hskip =>
    rw [← readsAll_fields?.all_skipSpace, hskip] at h
    rcases fuel with _ | fuel
    · cases h
    · simp [fields?, skipSpace, isSpace] at h
  · rw [readsAll_fields?.all_skipSpace, h]
    rfl

namespace Spells

theorem null : Spells value? "null".toList null := by
  refine .of_succ (by decide) fun fuel rest _ _ => rfl

theorem bool (b : Bool) : Spells value? (if b then "true" else "false").toList (bool b) := by
  cases b
  · exact .of_succ (by decide) fun fuel rest _ _ => rfl
  · exact .of_succ (by decide) fun fuel rest _ _ => rfl

theorem int (n : Int) : Spells value? n.repr.toList (number (.ofInt n)) := by
  refine .of_succ ?_ fun fuel rest _ hrest => ?_
  · have hdigits : ∀ k, fault ∉ Nat.toDigits 10 k := by
      intro k hk
      have hdigit := Nat.isDigit_of_mem_toDigits (by decide) (by decide) hk
      revert hdigit
      decide
    have hsign : fault ≠ '-' := by decide
    rw [Int.repr_eq_if]
    split <;> simp [hdigits, hsign]
  · have hnumber := number?_repr n hrest
    refine value?_of_number (r := (.ofInt n, rest)) ?_ fuel
    rw [skipSpace_of_number? hnumber]
    exact hnumber

theorem string (s : String) : Spells value? (Json.quote s).toList (string (some s)) := by
  refine .of_succ (fault_not_mem_quote s) fun fuel rest _ _ => ?_
  rw [toList_quote]
  simp [value?, skipSpace, isSpace, string?, stringBody?_flatMap_escape]

theorem field (key : String) {text : List Char} {d : Document} (h : Spells value? text d) :
    Spells field? ((Json.quote key).toList ++ ':' :: ' ' :: text) (some key, d) := by
  have hcolon : fault ≠ ':' ∧ fault ≠ ' ' := by decide
  refine ⟨by simp [fault_not_mem_quote, h.sound, hcolon], fun fuel rest hfuel hrest => ?_⟩
  have htext : value? fuel (' ' :: (text ++ rest)) = some (d, rest) := by
    have hblank : [' '].all isSpace = true := rfl
    refine (value?_skipSpace fuel hblank _).trans (h.read fuel rest ?_ hrest)
    simp only [List.length_append, List.length_cons] at hfuel
    omega
  rw [toList_quote]
  simp [field?, skipSpace, isSpace, string?, stringBody?_flatMap_escape, htext]

end Spells

/-! Lists of values. -/

/-- What stands between two entries of a block, or before the first one. -/
def lineIn (indent : String) : List Char :=
  '\n' :: (indent.toList ++ [' ', ' '])

theorem toList_block {entries : List String} (hne : entries ≠ [])
    (opening closing indent : String) : (Json.block opening closing indent entries).toList =
      opening.toList ++ (lineIn indent ++ ((',' :: lineIn indent).intercalate
        (entries.map String.toList) ++ '\n' :: (indent.toList ++ closing.toList))) := by
  unfold Json.block
  split
  · exact absurd rfl hne
  · simp [lineIn]

theorem fault_not_mem_blank {spaces : List Char} (h : spaces.all isSpace = true) :
    fault ∉ spaces := by
  intro hmem
  have hspace := List.all_eq_true.mp h fault hmem
  revert hspace
  decide

section

variable {α : Type} {read : Nat → List Char → Option (α × List Char)}
  {all : Nat → List Char → Option (List α × List Char)}

theorem fault_not_mem_intercalate {sep : List Char} (hsep : fault ∉ sep)
    {texts : List (List Char)} {as : List α} (h : List.Forall₂ (Spells read) texts as) :
    fault ∉ sep.intercalate texts := by
  induction h with
  | nil => exact List.not_mem_nil
  | @cons text a texts as htext _ ih =>
    cases texts with
    | nil => simpa using htext.sound
    | cons text' texts =>
      rw [List.intercalate_cons_cons]
      simp [htext.sound, hsep, ih]

theorem isSpace_lineIn {indent : String} (h : indent.toList.all isSpace = true) :
    (lineIn indent).all isSpace = true := by
  simp only [lineIn, List.all_cons, List.all_append, h]
  decide

/-- Entries on lines of their own are read between their brackets. -/
theorem Spells.block (opening closing : Char) (hall : ReadsAll read all closing)
    (hclosing : isSpace closing = false) (hbrackets : fault ∉ [opening, closing])
    {indent : String} (hindent : indent.toList.all isSpace = true) {entries : List String}
    (hne : entries ≠ []) {as : List α}
    (h : List.Forall₂ (Spells read) (entries.map String.toList) as) {d : Document}
    (hd : ∀ fuel s rest, all fuel s = some (as, rest) →
      value? (fuel + 1) (opening :: s) = some (d, rest)) :
    Spells value? (Json.block opening.toString closing.toString indent entries).toList d := by
  have hline := isSpace_lineIn hindent
  simp only [toList_block hne, Char.toString_eq_singleton, String.toList_singleton]
  refine .of_succ ?_ fun fuel rest hfuel hrest => ?_
  · have hsep : fault ∉ ',' :: lineIn indent :=
      List.not_mem_cons_of_ne_of_not_mem (by decide) (fault_not_mem_blank hline)
    have hnewline : fault ≠ '\n' := by decide
    simp only [List.mem_cons, List.not_mem_nil, or_false, not_or] at hbrackets
    simp [hbrackets, fault_not_mem_intercalate hsep h, fault_not_mem_blank hline, hnewline,
      fault_not_mem_blank hindent]
  · simp only [List.length_append, List.length_cons, List.length_nil] at hfuel
    have hread := hall.intercalate hclosing hline hindent h (by simpa using hne) fuel rest
      (by omega)
    rw [← hall.skip fuel _ _ hline] at hread
    have hvalue := hd _ _ _ hread
    simpa using hvalue

end

theorem Spells.array {indent : String} (hindent : indent.toList.all isSpace = true)
    {entries : List String} {ds : List Document}
    (h : List.Forall₂ (Spells value?) (entries.map String.toList) ds) :
    Spells value? (Json.block "[" "]" indent entries).toList (array ds) := by
  rcases entries with _ | ⟨entry, entries⟩
  · cases h
    have hempty : (Json.block "[" "]" indent []).toList = ['[', ']'] := by
      simp [Json.block]
    rw [hempty]
    exact .of_succ (by decide) fun _ _ _ _ => rfl
  · exact .block '[' ']' readsAll_items? rfl (by decide) hindent (List.cons_ne_nil _ _) h
      fun _ _ _ => value?_array

theorem Spells.object {indent : String} (hindent : indent.toList.all isSpace = true)
    {entries : List String} {fs : List (Option String × Document)}
    (h : List.Forall₂ (Spells field?) (entries.map String.toList) fs) :
    Spells value? (Json.block "\x7b" "\x7d" indent entries).toList (object fs) := by
  rcases entries with _ | ⟨entry, entries⟩
  · cases h
    have hempty : (Json.block "\x7b" "\x7d" indent []).toList = ['{', '}'] := by
      simp [Json.block]
    rw [hempty]
    exact .of_succ (by decide) fun _ _ _ _ => rfl
  · exact .block '{' '}' readsAll_fields? rfl (by decide) hindent (List.cons_ne_nil _ _) h
      fun _ _ _ => value?_object

theorem Spells.read? {text : List Char} {d : Document} (h : Spells value? text d) :
    Document.read? text = some d := by
  have hread := h.read (2 * text.length + 2) [] (by omega) (by rintro _ ⟨⟩)
  rw [List.append_nil] at hread
  rw [Document.read?, readFirst?, hread]
  rfl

end Document

namespace Json

mutual

/-- All numbers in the value are integers. -/
def Integral : Json → Prop
  | null | bool _ | str _ | num (.int _) => True
  | num (.double _) => False
  | arr items => IntegralItems items
  | obj fields => IntegralFields fields
termination_by structural v => v

def IntegralItems : List Json → Prop
  | [] => True
  | v :: vs => Integral v ∧ IntegralItems vs
termination_by structural vs => vs

def IntegralFields : List (String × Json) → Prop
  | [] => True
  | (_, v) :: fs => Integral v ∧ IntegralFields fs
termination_by structural fs => fs

end

mutual

/-- The document that is printed for a value. The text of a double is not told here: it stands for
no value that is integral. -/
def document : Json → Document
  | null => .null
  | bool b => .bool b
  | num (.int n) => .number (.ofInt n)
  | num (.double v) => .number ⟨v.negative, [], none, none⟩
  | str s => .string (some s)
  | arr items => .array (documentItems items)
  | obj fields => .object (documentFields fields)
termination_by structural v => v

def documentItems : List Json → List Document
  | [] => []
  | v :: vs => document v :: documentItems vs
termination_by structural vs => vs

def documentFields : List (String × Json) → List (Option String × Document)
  | [] => []
  | (k, v) :: fs => (some k, document v) :: documentFields fs
termination_by structural fs => fs

end

open Document (Spells value? field? isSpace)

theorem isSpace_deeper {indent : String} (h : indent.toList.all isSpace = true) :
    (indent ++ "  ").toList.all isSpace = true := by
  rw [String.toList_append, List.all_append, h]
  rfl

mutual

/-- What is printed of a value is read as its document. -/
theorem spells_prettyAt (indent : String) (hindent : indent.toList.all isSpace = true) :
    ∀ v : Json, v.Integral → Spells value? (prettyAt indent v).toList v.document
  | null, _ => .null
  | bool b, _ => .bool b
  | num (.int n), _ => .int n
  | num (.double _), h => h.elim
  | str s, _ => .string s
  | arr items, h => .array hindent (spells_prettyItems _ (isSpace_deeper hindent) items h)
  | obj fields, h => .object hindent (spells_prettyFields _ (isSpace_deeper hindent) fields h)

theorem spells_prettyItems (indent : String) (hindent : indent.toList.all isSpace = true) :
    ∀ vs : List Json, IntegralItems vs → List.Forall₂ (Spells value?)
      ((prettyItems indent vs).map String.toList) (documentItems vs)
  | [], _ => .nil
  | v :: vs, h =>
    .cons (spells_prettyAt indent hindent v h.1) (spells_prettyItems indent hindent vs h.2)

theorem spells_prettyFields (indent : String) (hindent : indent.toList.all isSpace = true) :
    ∀ fs : List (String × Json), IntegralFields fs → List.Forall₂ (Spells field?)
      ((prettyFields indent fs).map String.toList) (documentFields fs)
  | [], _ => .nil
  | (k, v) :: fs, h => by
    have hfield := Spells.field k (spells_prettyAt indent hindent v h.1)
    refine .cons ?_ (spells_prettyFields indent hindent fs h.2)
    simpa using hfield

end

/-- A printed value is read as its document again, and has no fault in it. -/
theorem spells_pretty {v : Json} (h : v.Integral) : Spells value? v.pretty.toList v.document :=
  spells_prettyAt "" rfl v h

end Json

end ArchChange
