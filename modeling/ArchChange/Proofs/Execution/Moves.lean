import ArchChange.Proofs.Execution.Action
import ArchChange.Proofs.Model.Listing
/-!
Moves to folders. The executor finds the folder that a path leads to, and what is moved there is
then listed once in the tree, at the end of that folder.
-/
namespace ArchChange.Execution

open Folder

/-- In a tree whose folders have distinct ids the executor finds exactly the folder that a path
leads to by names, or fails with the first name that leads nowhere. And moving what there is to
such a folder lists it once in the tree, as the last of what that folder lists; every folder keeps
what else it lists, in order, and the tree of folders and all the rest of the run stay. -/
theorem moveToFolder_lands (run : Run Model) (hn : (Folder.idsIn run.store.folders).Nodup)
    (path : String) :
    (∃ outcome, (∀ o, LeadsTo run.store.folders path o ↔ o = outcome) ∧
      (Step.folderAt path).run run = (outcome.map Folder.id, run)) ∧
    ∀ oracle id entity folder, run.live? id = some entity → entity ∈ run.store.entityIds →
      LeadsTo run.store.folders path (.ok folder) →
      ∃ folders, (applyAction oracle (.moveToFolder id path)).run run =
          (.ok ⟨.moved entity path, none⟩, { run with store := { run.store with folders } }) ∧
        Folder.bareIn folders = Folder.bareIn run.store.folders ∧
        Folder.listing folders = (Folder.listing run.store.folders).map (fun p => (p.1,
          (p.2.filter fun x => x ≠ entity) ++ if p.1 = folder.id then [entity] else [])) ∧
        (Folder.membersIn folders).count entity = 1 ∧
        ({ run.store with folders } : Model).folderOf? entity = some folder.id := by
  obtain ⟨outcome, hends, hrun, hmem⟩ := Step.run_folderAt hn path
  refine ⟨⟨outcome, hends, hrun⟩, ?_⟩
  intro oracle id entity folder hlive hentity hleads
  obtain rfl := (hends _).mp hleads
  have hid : folder.id ∈ Folder.idsIn run.store.folders :=
    Folder.idsIn_eq_map _ ▸ List.mem_map_of_mem (hmem folder rfl)
  have hmove : Store.moveToFolder folder.id entity run.store = (.ok (), { run.store with
      folders := fileIn folder.id entity (removeIn entity run.store.folders) }) :=
    Model.moveToFolder_of_mem hentity hid
  refine ⟨fileIn folder.id entity (removeIn entity run.store.folders), ?_, ?_,
    Folder.listing_move hn folder.id entity, ?_, Folder.holderIn?_move hn hid⟩
  · rw [applyAction, Step.run_bind_of_ok (Step.run_resolve_of_some hlive _),
      Step.run_bind_of_ok hrun, Step.run_bind_of_ok (Step.run_call_of_ok hmove .store)]
    rfl
  · rw [Folder.bareIn_fileIn, Folder.bareIn_removeIn]
  · rw [(Model.membersIn_move hid).count_eq, List.count_cons_self]
    have hnone : entity ∉ (Folder.membersIn run.store.folders).filter fun x => x ≠ entity := by
      simp
    rw [List.count_eq_zero_of_not_mem hnone]

/-- Letters of either case at the top, blanks and doubled slashes lead to a folder inside another,
which gets what was listed twice; where a folder has none inside, its name is told. -/
theorem moveToFolder_lands_sample :
    let sales : Folder := ⟨"folder-3", "Sales", [], ["view-2"]⟩
    let m : Model := { Model.new "Office" with
      elements := [⟨"element-1", .businessActor, "Clerk", "", .empty⟩]
      folders := [⟨"folder-1", "Other", [], ["element-1"]⟩,
        ⟨"folder-2", "Business", [sales], ["element-1"]⟩] }
    (Folder.idsIn m.folders).Nodup ∧ (Run.start m).live? "element-1" = some "element-1" ∧
      "element-1" ∈ m.entityIds ∧ LeadsTo m.folders " BUSINESS// Sales" (.ok sales) ∧
      (∃ folders, ((applyAction .bundled (.moveToFolder "element-1" " BUSINESS// Sales")).run
          (Run.start m)).2.store.folders = folders ∧
        Folder.listing folders =
          [("folder-1", []), ("folder-2", []), ("folder-3", ["view-2", "element-1"])]) ∧
      (Step.folderAt "business/Sales/North").run (Run.start m) =
        (.error (.folderNotFound "North" "Sales"), Run.start m) := by
  intro sales m
  have hn : (Folder.idsIn m.folders).Nodup := by decide
  have hlive : (Run.start m).live? "element-1" = some "element-1" := by decide
  have hentity : "element-1" ∈ m.entityIds := by decide
  have htop : ∀ name, Text.sameLetters "Business" name → ¬ Text.sameLetters "Other" name →
      IsFirst (fun n => Text.sameLetters n name) m.folders
        ⟨"folder-2", "Business", [sales], ["element-1"]⟩ := by
    intro name hbusiness hother
    exact ⟨hbusiness, [_], [], rfl, by simpa using hother⟩
  have hspells : Spells " BUSINESS// Sales" ["BUSINESS", "Sales"] := by
    unfold Spells
    decide +kernel
  have hleads : LeadsTo m.folders " BUSINESS// Sales" (.ok sales) :=
    .below hspells (htop _ (by decide +kernel) (by decide +kernel))
      (.into ⟨rfl, [], [], rfl, by simp⟩ (.here sales))
  have hspells' : Spells "business/Sales/North" ["business", "Sales", "North"] := by
    unfold Spells
    decide +kernel
  have hstops : LeadsTo m.folders "business/Sales/North"
      (.error (.folderNotFound "North" "Sales")) :=
    .below hspells' (htop _ (by decide +kernel) (by decide +kernel))
      (.into ⟨rfl, [], [], rfl, by simp⟩ (.stop (by simp [sales])))
  obtain ⟨folders, hrun, -, hlisting, -⟩ := (moveToFolder_lands (Run.start m) hn
    " BUSINESS// Sales").2 .bundled "element-1" "element-1" sales hlive hentity hleads
  obtain ⟨outcome, hends, hfails⟩ := (moveToFolder_lands (Run.start m) hn "business/Sales/North").1
  rw [← (hends _).mp hstops] at hfails
  exact ⟨hn, hlive, hentity, hleads, ⟨folders, by rw [hrun], hlisting⟩, hfails⟩

end ArchChange.Execution
