/-!
Lists of entries with ascending keys. Keys are ordered by code points, which is the order of
their UTF-8 octets too.
-/
namespace ArchChange.Keyed

variable {α : Type}

/-- Each key is below the keys after it. -/
def Ascending (entries : List (String × α)) : Prop :=
  entries.Pairwise fun p q => p.1 < q.1

/-- Puts `v` at key `k`; a former value of `k` is replaced. -/
def insert (k : String) (v : α) : List (String × α) → List (String × α)
  | [] => [(k, v)]
  | (l, w) :: rest =>
    if k < l then (k, v) :: (l, w) :: rest
    else if k = l then (k, v) :: rest
    else (l, w) :: insert k v rest

/-- Takes away the entries of a key. -/
def erase (k : String) (entries : List (String × α)) : List (String × α) :=
  entries.filter fun e => e.1 ≠ k

/-- The given entries in ascending order of keys; of two values for one key the later stays. -/
def ofList (entries : List (String × α)) : List (String × α) :=
  entries.foldl (fun es e => insert e.1 e.2 es) []

theorem mem_insert {k : String} {v : α} {entries : List (String × α)} {e : String × α}
    (h : e ∈ insert k v entries) : e = (k, v) ∨ e ∈ entries := by
  induction entries with
  | nil => simpa [insert] using h
  | cons f rest ih =>
    obtain ⟨l, w⟩ := f
    grind [insert]

theorem lt_of_not_lt_of_ne {k l : String} (h : ¬ k < l) (hne : k ≠ l) : l < k := by
  rcases Std.lt_trichotomy k l with hlt | heq | hgt
  · exact absurd hlt h
  · exact absurd heq hne
  · exact hgt

theorem ascending_insert {entries : List (String × α)} (h : Ascending entries) (k : String)
    (v : α) : Ascending (insert k v entries) := by
  induction entries with
  | nil => simp [insert, Ascending]
  | cons f rest ih =>
    obtain ⟨l, w⟩ := f
    obtain ⟨hl, hr⟩ := List.pairwise_cons.1 h
    simp only [insert]
    split
    · next hlt =>
      refine List.pairwise_cons.2 ⟨?_, h⟩
      intro e he
      rcases List.mem_cons.1 he with rfl | he
      · exact hlt
      · exact String.lt_trans hlt (hl e he)
    · next hnlt =>
      split
      · next heq => subst heq; exact List.pairwise_cons.2 ⟨hl, hr⟩
      · next hne =>
        refine List.pairwise_cons.2 ⟨?_, ih hr⟩
        intro e he
        rcases mem_insert he with rfl | he
        · exact lt_of_not_lt_of_ne hnlt hne
        · exact hl e he

theorem ascending_erase {entries : List (String × α)} (h : Ascending entries) (k : String) :
    Ascending (erase k entries) :=
  h.sublist List.filter_sublist

theorem lookup_insert (k l : String) (v : α) (entries : List (String × α)) :
    (insert k v entries).lookup l = if l = k then some v else entries.lookup l := by
  induction entries with
  | nil => grind [insert]
  | cons f rest ih =>
    obtain ⟨m, w⟩ := f
    grind [insert]

theorem lookup_erase (k l : String) (entries : List (String × α)) :
    (erase k entries).lookup l = if l = k then none else entries.lookup l := by
  induction entries with
  | nil => grind [erase]
  | cons f rest ih =>
    obtain ⟨m, w⟩ := f
    grind [erase]

theorem ascending_foldl_insert {entries : List (String × α)} (es : List (String × α))
    (h : Ascending entries) :
    Ascending (es.foldl (fun es e => insert e.1 e.2 es) entries) := by
  induction es generalizing entries with
  | nil => exact h
  | cons e es ih => exact ih (ascending_insert h e.1 e.2)

theorem perm_insert {k : String} {entries : List (String × α)} (h : k ∉ entries.map Prod.fst)
    (v : α) : (insert k v entries).Perm ((k, v) :: entries) := by
  induction entries with
  | nil => exact List.Perm.refl _
  | cons f rest ih =>
    obtain ⟨l, w⟩ := f
    obtain ⟨hne, hrest⟩ := not_or.mp (mt List.mem_cons.mpr h)
    simp only [insert, if_neg hne]
    split
    · exact List.Perm.refl _
    · exact ((ih hrest).cons (l, w)).trans (List.Perm.swap (k, v) (l, w) rest)

theorem perm_foldl_insert {es entries : List (String × α)}
    (h : ((es ++ entries).map Prod.fst).Nodup) :
    (es.foldl (fun es e => insert e.1 e.2 es) entries).Perm (es ++ entries) := by
  induction es generalizing entries with
  | nil => exact List.Perm.refl _
  | cons e es ih =>
    rw [List.cons_append, List.map_cons, List.nodup_cons] at h
    have hnew : e.1 ∉ entries.map Prod.fst := by
      intro hmem
      exact h.1 (by rw [List.map_append]; exact List.mem_append_right _ hmem)
    have hstep := perm_insert hnew e.2
    have hmoved : (es ++ insert e.1 e.2 entries).Perm (e :: (es ++ entries)) :=
      (hstep.append_left es).trans List.perm_middle
    have hnodup : ((es ++ insert e.1 e.2 entries).map Prod.fst).Nodup :=
      (hmoved.map Prod.fst).nodup_iff.mpr (List.nodup_cons.mpr h)
    exact (ih hnodup).trans hmoved

/-- Entries with distinct keys are all there. -/
theorem perm_ofList {es : List (String × α)} (h : (es.map Prod.fst).Nodup) :
    (ofList es).Perm es := by
  have hnodup : ((es ++ []).map Prod.fst).Nodup := by rwa [List.append_nil]
  have hperm := perm_foldl_insert hnodup
  rwa [List.append_nil] at hperm

theorem ascending_ofList (es : List (String × α)) : Ascending (ofList es) :=
  ascending_foldl_insert es List.Pairwise.nil

theorem mem_keys_insert {k l : String} {v : α} {entries : List (String × α)} :
    l ∈ (insert k v entries).map Prod.fst ↔ l = k ∨ l ∈ entries.map Prod.fst := by
  induction entries with
  | nil => simp [insert]
  | cons f rest ih =>
    obtain ⟨m, w⟩ := f
    grind [insert]

theorem mem_keys_foldl_insert {l : String} {es entries : List (String × α)} :
    l ∈ (es.foldl (fun es e => insert e.1 e.2 es) entries).map Prod.fst ↔
      l ∈ es.map Prod.fst ∨ l ∈ entries.map Prod.fst := by
  induction es generalizing entries with
  | nil => simp
  | cons e es ih =>
    rw [List.foldl_cons, ih, mem_keys_insert, List.map_cons, List.mem_cons]
    grind

end ArchChange.Keyed
