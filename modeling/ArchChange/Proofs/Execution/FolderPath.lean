import ArchChange.Proofs.Execution.Step
import ArchChange.Proofs.Model.FolderTree
import ArchChange.Proofs.Text.Cutting
/-!
Folder paths. A path says by names how to go down from the top of the tree. The executor, which
asks for the folders inside a folder by its id, finds what the path says or stops at the first name
that is not there, if ids are distinct; and what is filed where does not matter.
-/
namespace ArchChange

namespace Folder

open Execution (ActionError)

/-- The folder is the first of some whose name has the property. -/
def IsFirst (p : String → Prop) (fs : List Folder) (f : Folder) : Prop :=
  p f.name ∧ ∃ before after, fs = before ++ f :: after ∧ ∀ g ∈ before, ¬ p g.name

/-- Where names lead from a folder: always to the first folder inside with the next name, up to
the last name or up to a folder that has none inside with the next one. -/
inductive Descends : Folder → List String → Except ActionError Folder → Prop
  | here (f : Folder) : Descends f [] (.ok f)
  | into {f child : Folder} {name : String} {names : List String}
      {outcome : Except ActionError Folder} (first : IsFirst (· = name) f.folders child)
      (rest : Descends child names outcome) : Descends f (name :: names) outcome
  | stop {f : Folder} {name : String} {names : List String}
      (missing : ∀ g ∈ f.folders, g.name ≠ name) :
      Descends f (name :: names) (.error (.folderNotFound name f.name))

/-- The path consists of the names: they are what is between its slashes, without blanks at the
ends and without what is empty then. -/
def Spells (path : String) (names : List String) : Prop :=
  names = (((path.toList.splitOn '/').map Text.trim).filter fun s => s ≠ []).map String.ofList

/-- Where a path leads in a tree of folders. At the top the case of letters makes no difference. -/
inductive LeadsTo (fs : List Folder) (path : String) : Except ActionError Folder → Prop
  | empty (names : Spells path []) : LeadsTo fs path (.error (.emptyFolderPath path))
  | noTop {name : String} {names : List String} (spells : Spells path (name :: names))
      (missing : ∀ f ∈ fs, ¬ Text.sameLetters f.name name) :
      LeadsTo fs path (.error (.topFolderNotFound name))
  | below {top : Folder} {name : String} {names : List String}
      {outcome : Except ActionError Folder} (spells : Spells path (name :: names))
      (first : IsFirst (fun n => Text.sameLetters n name) fs top)
      (rest : Descends top names outcome) : LeadsTo fs path outcome

variable {fs : List Folder} {f : Folder}

theorem isFirst_iff {p : String → Prop} [DecidablePred p] :
    IsFirst p fs f ↔ (fs.find? fun g => p g.name) = some f := by
  rw [List.find?_eq_some_iff_append]
  simp [IsFirst]

theorem spells_iff {path : String} {names : List String} :
    Spells path names ↔ names = Execution.Step.segments path := by
  rw [Spells, Execution.Step.segments, Text.pieces_eq_splitOn]
  have hempty : (fun s : List Char => !s.isEmpty) = fun s => decide (s ≠ []) := by
    funext s
    cases s <;> rfl
  rw [hempty]

theorem descends_nil_iff {outcome : Except ActionError Folder} :
    Descends f [] outcome ↔ outcome = .ok f := by
  constructor
  · rintro ⟨⟩
    rfl
  · rintro rfl
    exact .here f

theorem descends_cons_of_some {name : String} {child : Folder}
    (h : (f.folders.find? fun g => g.name == name) = some child) (names : List String)
    (outcome : Except ActionError Folder) :
    Descends f (name :: names) outcome ↔ Descends child names outcome := by
  have hchild : ∀ g, IsFirst (· = name) f.folders g ↔ g = child := by
    intro g
    rw [isFirst_iff]
    simp only [beq_eq_decide] at h
    rw [h]
    exact ⟨fun he => (Option.some.inj he).symm, fun he => he ▸ rfl⟩
  constructor
  · rintro (_ | ⟨first, rest⟩ | missing)
    · exact (hchild _).mp first ▸ rest
    · exact absurd (List.find?_some h) (by simpa using missing child (List.mem_of_find?_eq_some h))
  · intro rest
    exact .into ((hchild child).mpr rfl) rest

theorem descends_cons_of_none {name : String}
    (h : (f.folders.find? fun g => g.name == name) = none) (names : List String)
    (outcome : Except ActionError Folder) :
    Descends f (name :: names) outcome ↔ outcome = .error (.folderNotFound name f.name) := by
  have hmissing : ∀ g ∈ f.folders, g.name ≠ name := by
    intro g hg
    simpa using List.find?_eq_none.mp h g hg
  constructor
  · rintro (_ | ⟨first, -⟩ | -)
    · obtain ⟨hname, before, after, heq, -⟩ := first
      exact absurd hname (hmissing _ (heq ▸ List.mem_append_cons_self))
    · rfl
  · rintro rfl
    exact .stop hmissing

section

variable {path name : String} {names : List String} {outcome : Except ActionError Folder}

theorem leadsTo_iff_of_nil (h : Execution.Step.segments path = []) :
    LeadsTo fs path outcome ↔ outcome = .error (.emptyFolderPath path) := by
  constructor
  · rintro (_ | ⟨spells, -⟩ | ⟨spells, -, -⟩)
    · rfl
    · exact absurd (h ▸ spells_iff.mp spells) (List.cons_ne_nil _ _)
    · exact absurd (h ▸ spells_iff.mp spells) (List.cons_ne_nil _ _)
  · rintro rfl
    exact .empty (spells_iff.mpr h.symm)

theorem leadsTo_iff_of_none (hs : Execution.Step.segments path = name :: names)
    (h : (fs.find? fun f => Text.sameLetters f.name name) = none) :
    LeadsTo fs path outcome ↔ outcome = .error (.topFolderNotFound name) := by
  have hmissing : ∀ f ∈ fs, ¬ Text.sameLetters f.name name := List.find?_eq_none.mp h
  constructor
  · rintro (spells | ⟨spells, missing⟩ | ⟨spells, first, rest⟩)
    · cases hs ▸ spells_iff.mp spells
    · cases hs ▸ spells_iff.mp spells
      rfl
    · cases hs ▸ spells_iff.mp spells
      obtain ⟨hname, before, after, heq, -⟩ := first
      exact absurd hname (hmissing _ (heq ▸ List.mem_append_cons_self))
  · rintro rfl
    exact .noTop (spells_iff.mpr hs.symm) hmissing

theorem leadsTo_iff_of_some {top : Folder} (hs : Execution.Step.segments path = name :: names)
    (h : (fs.find? fun f => Text.sameLetters f.name name) = some top) :
    LeadsTo fs path outcome ↔ Descends top names outcome := by
  have hfirst : ∀ g, IsFirst (fun n => Text.sameLetters n name) fs g ↔ g = top := by
    intro g
    rw [isFirst_iff]
    simp only [Bool.decide_eq_true, h, Option.some.injEq]
    exact eq_comm
  constructor
  · rintro (spells | ⟨spells, missing⟩ | ⟨spells, first, rest⟩)
    · cases hs ▸ spells_iff.mp spells
    · cases hs ▸ spells_iff.mp spells
      exact absurd (List.find?_some h) (missing top (List.mem_of_find?_eq_some h))
    · cases hs ▸ spells_iff.mp spells
      exact (hfirst _).mp first ▸ rest
  · exact .below (spells_iff.mpr hs.symm) ((hfirst top).mpr rfl)

end

/-- The folder that names lead to, from folder to folder inside it. -/
def descend? : List String → Folder → Option Folder
  | [], f => some f
  | name :: names, f => (f.folders.find? fun g => g.name == name).bind (descend? names)

/-- The folder at a path. -/
def atPath? (path : String) (fs : List Folder) : Option Folder :=
  match Execution.Step.segments path with
  | [] => none
  | name :: names => (fs.find? fun f => Text.sameLetters f.name name).bind (descend? names)

theorem name_bare (f : Folder) : (bare f).name = f.name := by
  obtain ⟨fid, name, inner, members⟩ := f
  rfl

theorem folders_bare (f : Folder) : (bare f).folders = bareIn f.folders := by
  obtain ⟨fid, name, inner, members⟩ := f
  rfl

theorem find?_bareIn (p : String → Bool) (fs : List Folder) :
    ((bareIn fs).find? fun f => p f.name) = (fs.find? fun f => p f.name).map bare := by
  rw [bareIn_eq_map, List.find?_map]
  simp only [Function.comp_def, name_bare]

theorem descend?_bare (names : List String) (f : Folder) :
    descend? names (bare f) = (descend? names f).map bare := by
  induction names generalizing f with
  | nil => rfl
  | cons name names ih =>
    rw [descend?, descend?, folders_bare, find?_bareIn (fun n => n == name)]
    cases f.folders.find? fun g => g.name == name with
    | none => rfl
    | some g => exact ih g

theorem atPath?_bareIn (path : String) (fs : List Folder) :
    atPath? path (bareIn fs) = (atPath? path fs).map bare := by
  unfold atPath?
  cases Execution.Step.segments path with
  | nil => rfl
  | cons name names =>
    simp only
    rw [find?_bareIn (fun n => Text.sameLetters n name)]
    cases fs.find? fun f => Text.sameLetters f.name name with
    | none => rfl
    | some f => exact descend?_bare names f

/-- Paths lead somewhere or not whatever is filed in the folders. -/
theorem atPath?_eq_none_congr {fs gs : List Folder} (h : bareIn fs = bareIn gs) (path : String) :
    atPath? path fs = none ↔ atPath? path gs = none := by
  have hmap : (atPath? path fs).map bare = (atPath? path gs).map bare := by
    rw [← atPath?_bareIn, h, atPath?_bareIn]
  rw [← Option.map_eq_none_iff, hmap, Option.map_eq_none_iff]

theorem descends_ok_iff {names : List String} {g : Folder} :
    Descends f names (.ok g) ↔ descend? names f = some g := by
  induction names generalizing f with
  | nil => simp [descends_nil_iff, descend?, eq_comm]
  | cons name names ih =>
    rw [descend?]
    cases h : f.folders.find? fun g => g.name == name with
    | none => simp [descends_cons_of_none h]
    | some child => exact (descends_cons_of_some h names _).trans ih

theorem leadsTo_ok_iff {path : String} : LeadsTo fs path (.ok f) ↔ atPath? path fs = some f := by
  unfold atPath?
  cases hs : Execution.Step.segments path with
  | nil => simp [leadsTo_iff_of_nil hs]
  | cons name names =>
    cases h : fs.find? fun f => Text.sameLetters f.name name with
    | none => simp [leadsTo_iff_of_none hs h, h]
    | some top =>
      rw [leadsTo_iff_of_some hs h, descends_ok_iff]
      simp [h]

end Folder

namespace Execution.Step

open Folder (Descends LeadsTo)

variable {run : Run Model} {f : Folder}

theorem find?_map_ref (p : String → Bool) (fs : List Folder) :
    ((fs.map Folder.ref).find? fun r => p r.name) =
      (fs.find? fun f => p f.name).map Folder.ref := by
  rw [List.find?_map]
  rfl

section

variable (hn : (Folder.idsIn run.store.folders).Nodup)

include hn

theorem childFolders_eq (hf : f ∈ Folder.allIn run.store.folders) :
    Store.childFolders f.ref.id run.store = (.ok (f.folders.map Folder.ref), run.store) := by
  change (run.store.childFolders f.id, run.store) = _
  rw [Model.childFolders, Folder.findIn?_of_mem hn hf]

/-- Asking for folders by id goes down as the names say, to one end, in the tree. -/
theorem run_descend (hf : f ∈ Folder.allIn run.store.folders) (names : List String) :
    ∃ outcome, (∀ o, Descends f names o ↔ o = outcome) ∧
      (descend f.ref names).run run = (outcome.map Folder.ref, run) ∧
      ∀ g, outcome = .ok g → g ∈ Folder.allIn run.store.folders := by
  induction names generalizing f with
  | nil =>
    refine ⟨.ok f, fun o => Folder.descends_nil_iff, rfl, ?_⟩
    rintro g ⟨⟩
    exact hf
  | cons name names ih =>
    rw [descend, run_bind_of_ok (run_call_of_ok (childFolders_eq hn hf) .store),
      find?_map_ref (fun n => n == name)]
    cases hc : f.folders.find? fun g => g.name == name with
    | none =>
      refine ⟨_, Folder.descends_cons_of_none hc names, rfl, ?_⟩
      rintro g ⟨⟩
    | some child =>
      have hchild := Folder.mem_allIn_of_mem_folders hf (List.mem_of_find?_eq_some hc)
      obtain ⟨outcome, hends, hrun, hmem⟩ := ih hchild
      refine ⟨outcome, fun o => ?_, hrun, hmem⟩
      exact (Folder.descends_cons_of_some hc names o).trans (hends o)

/-- The executor finds where a path leads, be it to a folder or nowhere. -/
theorem run_folderAt (path : String) :
    ∃ outcome, (∀ o, LeadsTo run.store.folders path o ↔ o = outcome) ∧
      (folderAt path).run run = (outcome.map Folder.id, run) ∧
      ∀ g, outcome = .ok g → g ∈ Folder.allIn run.store.folders := by
  have hroot : ∀ name, (Store.topFolders run.store).find? (fun r => Text.sameLetters r.name name) =
      (run.store.folders.find? fun f => Text.sameLetters f.name name).map Folder.ref :=
    fun name => find?_map_ref (fun n => Text.sameLetters n name) run.store.folders
  unfold folderAt
  cases hs : segments path with
  | nil => exact ⟨_, fun o => Folder.leadsTo_iff_of_nil hs, rfl, by rintro g ⟨⟩⟩
  | cons name names =>
    simp only
    rw [run_get_bind, hroot]
    cases ht : run.store.folders.find? fun f => Text.sameLetters f.name name with
    | none => exact ⟨_, fun o => Folder.leadsTo_iff_of_none hs ht, rfl, by rintro g ⟨⟩⟩
    | some top =>
      have htop := Folder.mem_allIn_of_mem (List.mem_of_find?_eq_some ht)
      obtain ⟨outcome, hends, hrun, hmem⟩ := run_descend hn htop names
      refine ⟨outcome, fun o => (Folder.leadsTo_iff_of_some hs ht).trans (hends o), ?_, hmem⟩
      cases outcome with
      | error error => exact run_bind_of_error hrun _
      | ok g => exact run_bind_of_ok hrun _

theorem run_folderAt_of_some {path : String}
    (h : Folder.atPath? path run.store.folders = some f) :
    (folderAt path).run run = (.ok f.id, run) ∧ f.id ∈ Folder.idsIn run.store.folders := by
  obtain ⟨outcome, hends, hrun, hmem⟩ := run_folderAt hn path
  obtain rfl := (hends _).mp (Folder.leadsTo_ok_iff.mpr h)
  exact ⟨hrun, Folder.idsIn_eq_map _ ▸ List.mem_map_of_mem (hmem f rfl)⟩

/-- Where a path leads nowhere, looking for its folder fails and changes nothing. -/
theorem run_folderAt_of_none {path : String}
    (h : Folder.atPath? path run.store.folders = none) :
    ∃ error, (folderAt path).run run = (.error error, run) := by
  obtain ⟨outcome, hends, hrun, -⟩ := run_folderAt hn path
  cases outcome with
  | error error => exact ⟨error, hrun⟩
  | ok f => cases h.symm.trans (Folder.leadsTo_ok_iff.mp ((hends _).mpr rfl))

end

end Execution.Step

end ArchChange
