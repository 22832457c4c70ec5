import ArchChange.Json.Record
import Mathlib.Data.List.Forall2
import Mathlib.Data.List.Nodup
/-!
Reading the parts of records. A part that the fields hold is read from its value, one that they may
leave out has its default otherwise, and a list is read item by item.
-/
namespace ArchChange

section

variable {α β : Type} {f : α → Option β} {items : List α} {as : List β}

theorem mapM_of_forall₂ (h : List.Forall₂ (fun v a => f v = some a) items as) :
    items.mapM f = some as := by
  induction h with
  | nil => rfl
  | cons hf _ ih => simp [List.mapM_cons, hf, ih]

theorem mem_of_mapM (h : items.mapM f = some as) {a : β} (ha : a ∈ as) :
    ∃ v ∈ items, f v = some a := by
  induction items generalizing as with
  | nil =>
    rw [List.mapM_nil] at h
    cases h
    cases ha
  | cons v items ih =>
    rw [List.mapM_cons] at h
    obtain ⟨b, hb, h⟩ := Option.bind_eq_some_iff.mp h
    obtain ⟨bs, hbs, h⟩ := Option.bind_eq_some_iff.mp h
    cases h
    rcases List.mem_cons.mp ha with rfl | ha
    · exact ⟨v, List.mem_cons_self, hb⟩
    · obtain ⟨w, hw, hf⟩ := ih hbs ha
      exact ⟨w, List.mem_cons_of_mem _ hw, hf⟩

end

section

theorem mem_of_lookup {α : Type} {l : List (String × α)} {k : String} {v : α}
    (h : l.lookup k = some v) : (k, v) ∈ l := by
  obtain ⟨l₁, l₂, rfl, -⟩ := List.lookup_eq_some_iff.mp h
  simp

variable {l : List (String × Json)} {k : String} {v : Json}

/-- A key has the value that its entries agree on. -/
theorem lookup_eq_some_of_unique (hv : (k, v) ∈ l) (hu : ∀ w, (k, w) ∈ l → w = v) :
    l.lookup k = some v := by
  cases hlookup : l.lookup k with
  | none =>
    have hne := List.lookup_eq_none_iff.mp hlookup _ hv
    simp at hne
  | some w => rw [hu w (mem_of_lookup hlookup)]

theorem getD_lookup_of_unique (hv : v = .null ∨ (k, v) ∈ l) (hu : ∀ w, (k, w) ∈ l → w = v) :
    (l.lookup k).getD .null = v := by
  rcases hv with rfl | hv
  · cases hlookup : l.lookup k with
    | none => rfl
    | some w => exact hu w (mem_of_lookup hlookup)
  · rw [lookup_eq_some_of_unique hv hu, Option.getD_some]

/-- The order of the entries is of no account where keys are distinct. -/
theorem lookup_eq_of_perm {l' : List (String × Json)} (hperm : l.Perm l')
    (hnodup : (l'.map Prod.fst).Nodup) : l.lookup k = l'.lookup k := by
  cases hlookup : l'.lookup k with
  | none =>
    rw [List.lookup_eq_none_iff] at hlookup ⊢
    exact fun p hp => hlookup p (hperm.mem_iff.mp hp)
  | some v =>
    have hv := mem_of_lookup hlookup
    refine lookup_eq_some_of_unique (hperm.mem_iff.mpr hv) fun w hw => ?_
    exact congrArg Prod.snd (List.inj_on_of_nodup_map hnodup (hperm.mem_iff.mp hw) hv rfl)

end

namespace Json

/-- The value is a text. -/
def IsText (text : String) (v : Json) : Prop :=
  v = .str text

/-- The value is an array, and its items spell the items of a list. -/
def Lists {α : Type} (spells : α → Json → Prop) (as : List α) (v : Json) : Prop :=
  ∃ items, v = .arr items ∧ List.Forall₂ spells as items

/-- The fields hold a value that spells a part of a record. -/
def Holds (fields : List (String × Json)) (name : String) (spells : Json → Prop) : Prop :=
  ∃ v, fields.lookup name = some v ∧ spells v

/-- The fields hold a part of a record, or leave it out where that is allowed. -/
def Gives (fields : List (String × Json)) (name : String) (omissible : Prop)
    (spells : Json → Prop) : Prop :=
  Holds fields name spells ∨ fields.lookup name = none ∧ omissible

/-- Whatever spells `a` is read as `a`. -/
def Reads {α : Type} (read : Json → Option α) (spells : Json → Prop) (a : α) : Prop :=
  ∀ v, spells v → read v = some a

variable {α : Type} {read : Json → Option α} {fields : List (String × Json)} {name : String}

theorem isText_str (text : String) : IsText text (.str text) := rfl

theorem reads_text (text : String) : Reads text? (IsText text) text := by
  rintro v rfl
  rfl

theorem reads_list {spells : α → Json → Prop} {as : List α}
    (h : ∀ a ∈ as, Reads read (spells a) a) : Reads (list? read) (Lists spells as) as := by
  rintro v ⟨items, rfl, hitems⟩
  refine mapM_of_forall₂ ?_
  induction hitems with
  | nil => exact .nil
  | cons hspells _ ih =>
    obtain ⟨hfirst, hrest⟩ := List.forall_mem_cons.mp h
    exact .cons (hfirst _ hspells) (ih hrest)

theorem required?_of_holds {spells : Json → Prop} {a : α} (hr : Reads read spells a)
    (h : Holds fields name spells) : required? fields name read = some a := by
  obtain ⟨v, hv, hspells⟩ := h
  rw [required?, hv, Option.bind_some]
  exact hr v hspells

theorem defaulted?_of_gives {spells : Json → Prop} {a value : α} (hr : Reads read spells a)
    (h : Gives fields name (a = value) spells) : defaulted? fields name value read = some a := by
  unfold defaulted?
  rcases h with ⟨v, hv, hspells⟩ | ⟨hnone, rfl⟩
  · rw [hv]
    exact hr v hspells
  · rw [hnone]

/-- What is read of a list that may be left out was read of one of its items. -/
theorem exists_read_of_mem {as : List α} (h : defaulted? fields name [] (list? read) = some as)
    {a : α} (ha : a ∈ as) : ∃ v, read v = some a := by
  unfold defaulted? list? at h
  split at h
  · cases h
    cases ha
  · obtain ⟨items, -, hmap⟩ := Option.bind_eq_some_iff.mp h
    obtain ⟨v, -, hread⟩ := mem_of_mapM hmap ha
    exact ⟨v, hread⟩

theorem lists_map {spells : α → Json → Prop} {write : α → Json} (h : ∀ a, spells a (write a))
    (as : List α) : Lists spells as (.arr (as.map write)) :=
  ⟨_, rfl, List.forall₂_map_right_iff.mpr (List.forall₂_same.mpr fun a _ => h a)⟩

end Json

end ArchChange
