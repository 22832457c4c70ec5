import ArchChange.Proofs.Model.Edits
/-!
What each folder of a tree lists, folder by folder in the order of the tree. Under distinct ids
filing adds to the list of one folder, and moving takes the entity out of all others.
-/
namespace ArchChange.Folder

/-- The folders at all depths by id, each with what it lists. -/
def listing (fs : List Folder) : List (String × List String) :=
  (allIn fs).map fun f => (f.id, f.members)

variable {id entity : String}

theorem listing_cons (fid name : String) (inner : List Folder) (members : List String)
    (rest : List Folder) : listing (⟨fid, name, inner, members⟩ :: rest) =
      (fid, members) :: (listing inner ++ listing rest) := by
  simp [listing, allIn, all]

theorem map_fst_listing (fs : List Folder) : (listing fs).map Prod.fst = idsIn fs := by
  rw [idsIn_eq_map, listing, List.map_map]
  rfl

theorem listing_removeIn (entity : String) (fs : List Folder) : listing (removeIn entity fs) =
    (listing fs).map fun p => (p.1, p.2.filter fun x => x ≠ entity) := by
  induction fs using forest_induction with
  | nil => rfl
  | cons fid name inner members rest hi hr =>
    simp only [removeIn, remove, listing_cons, hi, hr, List.map_cons, List.map_append]

/-- The list of the folder with the given id, with the entity at its end. -/
def fileAt (id entity : String) (p : String × List String) : String × List String :=
  (p.1, if p.1 = id then p.2 ++ [entity] else p.2)

theorem map_fileAt_of_not_mem {fs : List Folder} (h : id ∉ idsIn fs) :
    (listing fs).map (fileAt id entity) = listing fs := by
  refine (List.map_congr_left fun p hp => ?_).trans (List.map_id _)
  have hne : p.1 ≠ id := by
    rintro rfl
    exact h (map_fst_listing fs ▸ List.mem_map_of_mem hp)
  rw [fileAt, if_neg hne]
  rfl

theorem not_mem_of_modifyIn?_eq_none {change : Folder → Folder} {fs : List Folder}
    (h : modifyIn? id change fs = none) : id ∉ idsIn fs := by
  intro hmem
  have hsome : (modifyIn? id change fs).isSome := modifyIn?_isSome_iff.mpr hmem
  rw [h] at hsome
  cases hsome

/-- Under distinct ids the first folder with an id is the only one that gets the entity. -/
theorem listing_modifyIn? {fs gs : List Folder} (hn : (idsIn fs).Nodup)
    (h : modifyIn? id (addMember entity) fs = some gs) :
    listing gs = (listing fs).map (fileAt id entity) := by
  induction fs using forest_induction generalizing gs with
  | nil => simp [modifyIn?] at h
  | cons fid name inner members rest hi hr =>
    rw [idsIn, ids, List.cons_append, List.nodup_cons, List.mem_append, not_or,
      List.nodup_append] at hn
    obtain ⟨⟨hinner, hrest⟩, hni, hnr, hapart⟩ := hn
    by_cases hid : fid = id
    · subst hid
      simp only [modifyIn?, modify?, if_true, Option.some.injEq] at h
      rw [← h, addMember, listing_cons, listing_cons, List.map_cons, List.map_append,
        map_fileAt_of_not_mem hinner, map_fileAt_of_not_mem hrest]
      simp [fileAt]
    · have hself : fileAt id entity (fid, members) = (fid, members) := by simp [fileAt, hid]
      cases hm : modifyIn? id (addMember entity) inner with
      | none =>
        have hnot : id ∉ idsIn inner := not_mem_of_modifyIn?_eq_none hm
        simp only [modifyIn?, modify?, hid, if_false, hm, Option.map_none,
          Option.map_eq_some_iff] at h
        obtain ⟨rest', hfiled, rfl⟩ := h
        rw [listing_cons, listing_cons, List.map_cons, List.map_append, hself,
          map_fileAt_of_not_mem hnot, hr hnr hfiled]
      | some inner' =>
        have hmem : id ∈ idsIn inner := modifyIn?_isSome_iff.mp (by rw [hm]; rfl)
        have hnot : id ∉ idsIn rest := fun hr => hapart id hmem id hr rfl
        simp only [modifyIn?, modify?, hid, if_false, hm, Option.map_some,
          Option.some.injEq] at h
        rw [← h, listing_cons, listing_cons, List.map_cons, List.map_append, hself,
          map_fileAt_of_not_mem hnot, hi hni hm]

theorem listing_fileIn {fs : List Folder} (hn : (idsIn fs).Nodup) :
    listing (fileIn id entity fs) = (listing fs).map (fileAt id entity) := by
  unfold fileIn
  cases h : modifyIn? id (addMember entity) fs with
  | none =>
    rw [map_fileAt_of_not_mem (not_mem_of_modifyIn?_eq_none h)]
    rfl
  | some gs => exact listing_modifyIn? hn h

/-- The folder that holds an entity is the first one that lists it. -/
theorem holderIn?_eq_listing (entity : String) (fs : List Folder) : holderIn? entity fs =
    ((listing fs).find? fun p => p.2.contains entity).map Prod.fst := by
  induction fs using forest_induction with
  | nil => rfl
  | cons fid name inner members rest hi hr =>
    rw [holderIn?, holder?, listing_cons]
    by_cases h : members.contains entity = true
    · rw [if_pos h, List.find?_cons_of_pos (by simpa using h)]
      rfl
    · rw [if_neg h, List.find?_cons_of_neg (by simpa using h), List.find?_append, hi, hr]
      cases (listing inner).find? fun p => p.2.contains entity <;> rfl

section

variable {fs : List Folder} (hn : (idsIn fs).Nodup)

include hn

/-- Moving leaves every folder its other members, and lists the entity at the end of one. -/
theorem listing_move (id entity : String) : listing (fileIn id entity (removeIn entity fs)) =
    (listing fs).map fun p => (p.1,
      (p.2.filter fun x => x ≠ entity) ++ if p.1 = id then [entity] else []) := by
  rw [listing_fileIn (by rwa [idsIn_removeIn]), listing_removeIn, List.map_map]
  apply List.map_congr_left
  intro p _
  by_cases h : p.1 = id <;> simp [fileAt, h]

/-- What was moved is held by the folder it was moved to. -/
theorem holderIn?_move (hid : id ∈ idsIn fs) :
    holderIn? entity (fileIn id entity (removeIn entity fs)) = some id := by
  obtain ⟨p, hp, rfl⟩ := List.mem_map.mp (map_fst_listing fs ▸ hid)
  rw [holderIn?_eq_listing, listing_move hn, List.find?_map, Option.map_map]
  have hlists : ((listing fs).find? fun q => ((q.2.filter fun x => x ≠ entity) ++
      if q.1 = p.1 then [entity] else []).contains entity) =
      (listing fs).find? fun q => q.1 == p.1 := by
    congr 1
    funext q
    by_cases h : q.1 = p.1 <;> simp [h]
  have hfound : ((listing fs).find? fun q => q.1 == p.1) = some p :=
    Model.find?_of_mem (by rwa [map_fst_listing]) hp
  exact congrArg (Option.map _) (hlists.trans hfound)

end

end ArchChange.Folder
