import ArchChange.Proofs.Json.Printing
import ArchChange.Proofs.Json.Record
/-!
Selecting from what was printed. A value whose fields are all selected comes back whole, with its
keys in ascending order.
-/
namespace ArchChange

namespace Json

mutual

/-- The value with the keys of all its objects in ascending order. -/
def sorted : Json → Json
  | arr items => arr (sortedItems items)
  | obj fields => object (sortedFields fields)
  | v => v
termination_by structural v => v

def sortedItems : List Json → List Json
  | [] => []
  | v :: vs => sorted v :: sortedItems vs
termination_by structural vs => vs

def sortedFields : List (String × Json) → List (String × Json)
  | [] => []
  | (k, v) :: fs => (k, sorted v) :: sortedFields fs
termination_by structural fs => fs

end

variable {κ : Type}

mutual

/-- All of a value is selected and can be read: its integers fit 64 bits, its keys are distinct and
it is not nested too deeply. -/
def Fits (sel : Selection κ) (depth : Nat) (part : κ) : Json → Prop
  | null | bool _ | str _ => True
  | num (.int n) => -0x8000000000000000 ≤ n ∧ n < 0x10000000000000000
  | num (.double _) => False
  | arr items =>
    match depth with
    | 0 => False
    | depth + 1 => FitsItems sel depth part 0 items
  | obj fields =>
    match depth with
    | 0 => False
    | depth + 1 => (fields.map Prod.fst).Nodup ∧ FitsFields sel depth part fields
termination_by structural v => v

def FitsItems (sel : Selection κ) (depth : Nat) (part : κ) (index : Nat) : List Json → Prop
  | [] => True
  | v :: vs => Fits sel depth (sel.item part index) v ∧ FitsItems sel depth part (index + 1) vs
termination_by structural vs => vs

def FitsFields (sel : Selection κ) (depth : Nat) (part : κ) : List (String × Json) → Prop
  | [] => True
  | (k, v) :: fs => (∃ p, sel.field part k = some p ∧ (sel.text p = true → v.kind = .string) ∧
      Fits sel depth p v) ∧ FitsFields sel depth part fs
termination_by structural fs => fs

end

mutual

theorem Fits.integral {sel : Selection κ} {depth : Nat} {part : κ} :
    ∀ {v : Json}, v.Fits sel depth part → v.Integral
  | null, _ | bool _, _ | str _, _ | num (.int _), _ => trivial
  | num (.double _), h => h.elim
  | arr items, h => by
    cases depth with
    | zero => exact h.elim
    | succ depth => exact FitsItems.integral h
  | obj fields, h => by
    cases depth with
    | zero => exact h.elim
    | succ depth => exact FitsFields.integral h.2

theorem FitsItems.integral {sel : Selection κ} {depth : Nat} {part : κ} {index : Nat} :
    ∀ {vs : List Json}, FitsItems sel depth part index vs → IntegralItems vs
  | [], _ => trivial
  | _ :: _, h => ⟨h.1.integral, h.2.integral⟩

theorem FitsFields.integral {sel : Selection κ} {depth : Nat} {part : κ} :
    ∀ {fs : List (String × Json)}, FitsFields sel depth part fs → IntegralFields fs
  | [], _ => trivial
  | (_, _) :: _, ⟨⟨_, _, _, h⟩, hs⟩ => ⟨h.integral, hs.integral⟩

end

theorem kind_sorted (v : Json) : v.sorted.kind = v.kind := by
  cases v <;> rfl

theorem keys_sortedFields (fs : List (String × Json)) :
    (sortedFields fs).map Prod.fst = fs.map Prod.fst := by
  induction fs with
  | nil => rfl
  | cons f fs ih => rw [sortedFields, List.map_cons, List.map_cons, ih]

mutual

/-- A value that fits is selected whole. -/
theorem Fits.select? {sel : Selection κ} {depth : Nat} {part : κ} :
    ∀ {v : Json}, v.Fits sel depth part → v.document.select? sel depth part = some v.sorted
  | null, _ | bool _, _ | str _, _ => rfl
  | num (.int n), h => by
    rw [document, Document.select?, NumberText.value?_ofInt h.1 h.2]
    rfl
  | num (.double _), h => h.elim
  | arr items, h => by
    cases depth with
    | zero => exact h.elim
    | succ depth => rw [document, Document.select?, FitsItems.select? h]; rfl
  | obj fields, h => by
    cases depth with
    | zero => exact h.elim
    | succ depth =>
      have hkeys : Document.distinctKeys (sortedFields fields) = true := by
        rw [Document.distinctKeys, keys_sortedFields]
        exact decide_eq_true h.1
      rw [document, Document.select?, FitsFields.select? h.2]
      simp [hkeys, sorted]

theorem FitsItems.select? {sel : Selection κ} {depth : Nat} {part : κ} {index : Nat} :
    ∀ {vs : List Json}, FitsItems sel depth part index vs →
      Document.selectItems? sel depth part index (documentItems vs) = some (sortedItems vs)
  | [], _ => rfl
  | v :: vs, h => by
    rw [documentItems, Document.selectItems?, h.1.select?, h.2.select?]
    rfl

theorem FitsFields.select? {sel : Selection κ} {depth : Nat} {part : κ} :
    ∀ {fs : List (String × Json)}, FitsFields sel depth part fs →
      Document.selectFields? sel depth part (documentFields fs) = some (sortedFields fs)
  | [], _ => rfl
  | (k, v) :: fs, ⟨⟨p, hp, htext, h⟩, hs⟩ => by
    have hkind : sel.text p = true → v.sorted.kind = .string := fun ht =>
      (kind_sorted v).trans (htext ht)
    simpa [documentFields, Document.selectFields?, hp, h.select?, hs.select?, sortedFields] using
      hkind

end

/-- A value that fits is read from what is printed of it. -/
theorem Fits.ofTextSelecting? {sel : Selection κ} {part : κ} {v : Json}
    (h : v.Fits sel maxDepth part) :
    Json.ofTextSelecting? sel part v.pretty.toList = some v.sorted := by
  rw [Json.ofTextSelecting?, (spells_pretty h.integral).read?]
  exact h.select?

/-! What records hold does not depend on the order of their keys. -/

theorem lookup_sortedFields (fields : List (String × Json)) (key : String) :
    (sortedFields fields).lookup key = (fields.lookup key).map sorted := by
  induction fields with
  | nil => rfl
  | cons f fields ih =>
    obtain ⟨k, v⟩ := f
    rw [sortedFields, List.lookup_cons, List.lookup_cons, ih]
    cases key == k <;> rfl

section

variable {fields : List (String × Json)} (hkeys : (fields.map Prod.fst).Nodup) {name : String}

include hkeys

theorem lookup_sorted (key : String) :
    (Keyed.ofList (sortedFields fields)).lookup key = (fields.lookup key).map sorted := by
  rw [← keys_sortedFields] at hkeys
  rw [lookup_eq_of_perm (Keyed.perm_ofList hkeys) hkeys, lookup_sortedFields]

theorem Holds.sorted {spells : Json → Prop} (h : Holds fields name fun v => spells v.sorted) :
    Holds (Keyed.ofList (sortedFields fields)) name spells := by
  obtain ⟨v, hv, hspells⟩ := h
  exact ⟨v.sorted, by rw [lookup_sorted hkeys, hv]; rfl, hspells⟩

theorem Gives.sorted {omissible : Prop} {spells : Json → Prop}
    (h : Gives fields name omissible fun v => spells v.sorted) :
    Gives (Keyed.ofList (sortedFields fields)) name omissible spells := by
  rcases h with h | ⟨hnone, homissible⟩
  · exact Or.inl (h.sorted hkeys)
  · exact Or.inr ⟨by rw [lookup_sorted hkeys, hnone]; rfl, homissible⟩

end

theorem sortedItems_eq_map (vs : List Json) : sortedItems vs = vs.map sorted := by
  induction vs with
  | nil => rfl
  | cons v vs ih => rw [sortedItems, ih, List.map_cons]

theorem lists_sorted {α : Type} {spells : α → Json → Prop} {write : α → Json} {as : List α}
    (h : ∀ a ∈ as, spells a (write a).sorted) :
    Lists spells as (Json.arr (as.map write)).sorted := by
  rw [Json.sorted, sortedItems_eq_map, List.map_map]
  exact ⟨_, rfl, List.forall₂_map_right_iff.mpr (List.forall₂_same.mpr h)⟩

end Json

end ArchChange
