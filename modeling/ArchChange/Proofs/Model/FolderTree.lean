import ArchChange.Model.Folder
import Mathlib.Data.List.Nodup
import Mathlib.Data.List.Perm.Basic
/-!
What a list of folders holds at all depths: the folders, their ids and the entities filed in
them. Filing an entity and taking one out keep the tree apart from its members.
-/
namespace ArchChange.Folder

mutual

/-- A folder and all folders inside it, each before those inside it. -/
def all : Folder → List Folder
  | ⟨fid, name, folders, members⟩ => ⟨fid, name, folders, members⟩ :: allIn folders
termination_by structural f => f

def allIn : List Folder → List Folder
  | [] => []
  | f :: fs => all f ++ allIn fs
termination_by structural fs => fs

end

/-- The entities filed in some folders or in folders inside them. -/
def membersIn (fs : List Folder) : List String :=
  (allIn fs).flatMap Folder.members

mutual

/-- A folder without its members and those of the folders inside it. -/
def bare : Folder → Folder
  | ⟨fid, name, folders, _⟩ => ⟨fid, name, bareIn folders, []⟩
termination_by structural f => f

def bareIn : List Folder → List Folder
  | [] => []
  | f :: fs => bare f :: bareIn fs
termination_by structural fs => fs

end

/-- Induction on folders side by side: what is inside the first one, and the others. -/
@[elab_as_elim]
theorem forest_induction {motive : List Folder → Prop} (nil : motive [])
    (cons : ∀ fid name inner members rest, motive inner → motive rest →
      motive (⟨fid, name, inner, members⟩ :: rest)) : ∀ fs, motive fs
  | [] => nil
  | ⟨_, _, inner, _⟩ :: rest =>
    cons _ _ _ _ _ (forest_induction nil cons inner) (forest_induction nil cons rest)

theorem idsIn_eq_map (fs : List Folder) : idsIn fs = (allIn fs).map Folder.id := by
  induction fs using forest_induction with
  | nil => rfl
  | cons fid name inner members rest hi hr => simp [idsIn, ids, allIn, all, hi, hr]

theorem findIn?_eq_find? (id : String) (fs : List Folder) :
    findIn? id fs = (allIn fs).find? fun f => f.id == id := by
  induction fs using forest_induction with
  | nil => rfl
  | cons fid name inner members rest hi hr =>
    by_cases h : fid = id
    · simp [findIn?, find?, allIn, all, h]
    · simp only [findIn?, find?, h, if_false, allIn, all, List.cons_append, hi, hr]
      rw [List.find?_cons_of_neg (by simpa using h), List.find?_append]
      cases (allIn inner).find? fun f => f.id == id <;> rfl

theorem findIn?_isSome_iff {id : String} {fs : List Folder} :
    (findIn? id fs).isSome ↔ id ∈ idsIn fs := by
  rw [findIn?_eq_find?, idsIn_eq_map]
  simp [List.find?_isSome]

theorem mem_allIn_of_findIn? {id : String} {fs : List Folder} {f : Folder}
    (h : findIn? id fs = some f) : f ∈ allIn fs ∧ f.id = id := by
  rw [findIn?_eq_find?] at h
  exact ⟨List.mem_of_find?_eq_some h, by simpa using List.find?_some h⟩

/-- With distinct ids every folder is found by its id. -/
theorem findIn?_of_mem {fs : List Folder} {f : Folder} (hn : (idsIn fs).Nodup)
    (hf : f ∈ allIn fs) : findIn? f.id fs = some f := by
  obtain ⟨g, hg⟩ := Option.isSome_iff_exists.mp (findIn?_isSome_iff.mpr
    (idsIn_eq_map fs ▸ List.mem_map_of_mem hf))
  obtain ⟨hmem, hid⟩ := mem_allIn_of_findIn? hg
  rw [idsIn_eq_map] at hn
  rw [hg, List.inj_on_of_nodup_map hn hmem hf hid]

theorem allIn_append (fs gs : List Folder) : allIn (fs ++ gs) = allIn fs ++ allIn gs := by
  induction fs with
  | nil => rfl
  | cons f fs ih => simp [allIn, ih]

theorem mem_allIn_of_mem {fs : List Folder} {f : Folder} (h : f ∈ fs) : f ∈ allIn fs := by
  induction fs with
  | nil => cases h
  | cons g gs ih =>
    rcases List.mem_cons.mp h with rfl | h
    · obtain ⟨fid, name, inner, members⟩ := f
      simp [allIn, all]
    · simp [allIn, ih h]

/-- The folders inside a folder of the tree belong to the tree. -/
theorem mem_allIn_of_mem_folders {fs : List Folder} {f g : Folder} (hf : f ∈ allIn fs)
    (hg : g ∈ f.folders) : g ∈ allIn fs := by
  induction fs using forest_induction with
  | nil => simp [allIn] at hf
  | cons fid name inner members rest hi hr =>
    simp only [allIn, all, List.cons_append, List.mem_cons, List.mem_append] at hf ⊢
    rcases hf with rfl | hf | hf
    · exact Or.inr (Or.inl (mem_allIn_of_mem hg))
    · exact Or.inr (Or.inl (hi hf))
    · exact Or.inr (Or.inr (hr hf))

theorem bareIn_eq_map (fs : List Folder) : bareIn fs = fs.map bare := by
  induction fs with
  | nil => rfl
  | cons f fs ih => simp [bareIn, ih]

theorem idsIn_bareIn (fs : List Folder) : idsIn (bareIn fs) = idsIn fs := by
  induction fs using forest_induction with
  | nil => rfl
  | cons fid name inner members rest hi hr => simp [bareIn, bare, idsIn, ids, hi, hr]

theorem idsIn_congr {fs gs : List Folder} (h : bareIn fs = bareIn gs) : idsIn fs = idsIn gs := by
  rw [← idsIn_bareIn fs, h, idsIn_bareIn]

section

variable {id : String} {change : Folder → Folder}

theorem modifyIn?_isSome_iff {fs : List Folder} :
    (modifyIn? id change fs).isSome ↔ id ∈ idsIn fs := by
  induction fs using forest_induction with
  | nil => simp [modifyIn?, idsIn]
  | cons fid name inner members rest hi hr =>
    by_cases h : fid = id
    · simp [modifyIn?, modify?, idsIn, ids, h]
    · have hne : ¬ id = fid := fun he => h he.symm
      cases hm : modifyIn? id change inner with
      | none => simp_all [modifyIn?, modify?, idsIn, ids]
      | some gs => simp_all [modifyIn?, modify?, idsIn, ids]

theorem bareIn_modifyIn? (hc : ∀ f, bare (change f) = bare f) {fs gs : List Folder}
    (h : modifyIn? id change fs = some gs) : bareIn gs = bareIn fs := by
  induction fs using forest_induction generalizing gs with
  | nil => simp [modifyIn?] at h
  | cons fid name inner members rest hi hr =>
    by_cases hid : fid = id
    · simp only [modifyIn?, modify?, hid, if_true, Option.some.injEq] at h
      rw [← h, bareIn, bareIn, hc, hid]
    · cases hm : modifyIn? id change inner with
      | none =>
        simp only [modifyIn?, modify?, hid, if_false, hm, Option.map_none,
          Option.map_eq_some_iff] at h
        obtain ⟨rest', hrest, rfl⟩ := h
        rw [bareIn, bareIn, hr hrest]
      | some inner' =>
        simp only [modifyIn?, modify?, hid, if_false, hm, Option.map_some,
          Option.some.injEq] at h
        rw [← h, bareIn, bareIn, bare, bare, hi hm]

/-- What a change adds to one folder is what it adds to the whole tree. -/
theorem flatMap_modifyIn? {α : Type} (extra : List α) {content : Folder → List α}
    (hi : ∀ fid name inner inner' members,
      content ⟨fid, name, inner, members⟩ = content ⟨fid, name, inner', members⟩)
    (hc : ∀ f, ((all (change f)).flatMap content).Perm (extra ++ (all f).flatMap content))
    {fs gs : List Folder} (h : modifyIn? id change fs = some gs) :
    ((allIn gs).flatMap content).Perm (extra ++ (allIn fs).flatMap content) := by
  induction fs using forest_induction generalizing gs with
  | nil => simp [modifyIn?] at h
  | cons fid name inner members rest ihi ihr =>
    by_cases hid : fid = id
    · simp only [modifyIn?, modify?, hid, if_true, Option.some.injEq] at h
      rw [← h, allIn, allIn, List.flatMap_append, List.flatMap_append, ← List.append_assoc, hid]
      exact (hc _).append_right _
    · cases hm : modifyIn? id change inner with
      | none =>
        simp only [modifyIn?, modify?, hid, if_false, hm, Option.map_none,
          Option.map_eq_some_iff] at h
        obtain ⟨rest', hrest, rfl⟩ := h
        rw [allIn, allIn, List.flatMap_append, List.flatMap_append]
        exact ((ihr hrest).append_left _).trans (List.perm_append_comm_assoc _ _ _)
      | some inner' =>
        simp only [modifyIn?, modify?, hid, if_false, hm, Option.map_some,
          Option.some.injEq] at h
        simp only [← h, allIn, all, List.cons_append, List.flatMap_cons, List.flatMap_append,
          hi fid name inner' inner members]
        rw [← List.append_assoc extra]
        refine (((ihi hm).append_right _).append_left _).trans ?_
        simp only [← List.append_assoc]
        exact ((List.perm_append_comm).append_right _).append_right _

end

theorem bare_addMember (entity : String) (f : Folder) : bare (addMember entity f) = bare f := by
  obtain ⟨fid, name, inner, members⟩ := f
  simp [addMember, bare]

theorem members_addMember (entity : String) (f : Folder) :
    ((all (addMember entity f)).flatMap Folder.members).Perm
      ([entity] ++ (all f).flatMap Folder.members) := by
  obtain ⟨fid, name, inner, members⟩ := f
  simp only [addMember, all, List.flatMap_cons]
  rw [← List.append_assoc]
  exact List.perm_append_comm.append_right _

@[simp] theorem bareIn_fileIn (id entity : String) (fs : List Folder) :
    bareIn (fileIn id entity fs) = bareIn fs := by
  unfold fileIn
  cases h : modifyIn? id (addMember entity) fs with
  | none => rfl
  | some gs => exact bareIn_modifyIn? (bare_addMember entity) h

@[simp] theorem idsIn_fileIn (id entity : String) (fs : List Folder) :
    idsIn (fileIn id entity fs) = idsIn fs :=
  idsIn_congr (bareIn_fileIn id entity fs)

/-- Filing adds one member, or none if there is no such folder. -/
theorem membersIn_fileIn (id entity : String) (fs : List Folder) :
    (membersIn (fileIn id entity fs)).Perm
      ((if id ∈ idsIn fs then [entity] else []) ++ membersIn fs) := by
  unfold fileIn
  cases h : modifyIn? id (addMember entity) fs with
  | none =>
    have hid : id ∉ idsIn fs := by rw [← modifyIn?_isSome_iff, h]; simp
    simp [hid]
  | some gs =>
    have hid : id ∈ idsIn fs := modifyIn?_isSome_iff.mp (by rw [h]; rfl)
    rw [if_pos hid]
    exact flatMap_modifyIn? [entity] (fun _ _ _ _ _ => rfl) (members_addMember entity) h

@[simp] theorem bareIn_removeIn (entity : String) (fs : List Folder) :
    bareIn (removeIn entity fs) = bareIn fs := by
  induction fs using forest_induction with
  | nil => rfl
  | cons fid name inner members rest hi hr => simp [removeIn, remove, bareIn, bare, hi, hr]

@[simp] theorem idsIn_removeIn (entity : String) (fs : List Folder) :
    idsIn (removeIn entity fs) = idsIn fs :=
  idsIn_congr (bareIn_removeIn entity fs)

theorem membersIn_removeIn (entity : String) (fs : List Folder) :
    membersIn (removeIn entity fs) = (membersIn fs).filter fun m => m ≠ entity := by
  induction fs using forest_induction with
  | nil => rfl
  | cons fid name inner members rest hi hr =>
    simp only [membersIn, removeIn, remove, allIn, all, List.cons_append, List.flatMap_cons,
      List.flatMap_append, List.filter_append] at hi hr ⊢
    rw [hi, hr]

/-- A folder without content inside another one adds its id. -/
theorem idsIn_addFolder {parent id name : String} {fs gs : List Folder}
    (h : modifyIn? parent (addFolder ⟨id, name, [], []⟩) fs = some gs) :
    (idsIn gs).Perm (id :: idsIn fs) := by
  rw [idsIn_eq_map, idsIn_eq_map, List.map_eq_flatMap, List.map_eq_flatMap]
  refine flatMap_modifyIn? [id] (fun _ _ _ _ _ => rfl) ?_ h
  rintro ⟨fid, fname, inner, members⟩
  simp only [addFolder, all, allIn, allIn_append, List.flatMap_cons, List.flatMap_append,
    List.flatMap_nil, List.append_nil]
  rw [← List.append_assoc]
  exact List.perm_append_comm

/-- A folder without content inside another one adds no member. -/
theorem membersIn_addFolder {parent id name : String} {fs gs : List Folder}
    (h : modifyIn? parent (addFolder ⟨id, name, [], []⟩) fs = some gs) :
    (membersIn gs).Perm (membersIn fs) := by
  refine flatMap_modifyIn? [] (fun _ _ _ _ _ => rfl) ?_ h
  rintro ⟨fid, fname, inner, members⟩
  simp [addFolder, all, allIn, allIn_append]

end ArchChange.Folder
