import ArchChange.Proofs.Execution.Action
import ArchChange.Proofs.Execution.Operations
import ArchChange.Proofs.Model.Removal
/-!
Deleting an entity takes its cascade first. The cascade is all that leads to the entity, in an
order in which no deletion is refused.
-/
namespace ArchChange.Execution

/-- The walk from an id ends in one way. It leaves behind, each once, the other relationships that
lead to the id, and each after those attached to it unless the walk can come upon a cycle; and in
a well-formed model the action that deletes the id then takes the two away and nothing else. -/
theorem cascade_complete (m : Model) (id : String) :
    (∃ w, w.done = m.cascade id ∧
      ∀ w', Cascade.Visits m.attached (m.attached id) ⟨[id], []⟩ w' ↔ w' = w) ∧
    (m.cascade id).Nodup ∧
    (∀ r, r ∈ m.cascade id ↔ r ≠ id ∧ Relation.TransGen m.Attached r id) ∧
    ((∀ x, Relation.ReflTransGen m.Attached x id → ¬ Relation.TransGen m.Attached x x) →
      ∀ l x l', m.cascade id = l ++ x :: l' → ∀ y, m.Attached y x → y ∈ l) ∧
    (m.WellFormed → id ∈ m.entityIds → ∀ oracle name (run : Run Model), run.store = m →
      run.live? name = some id → (applyAction oracle (.deleteElement name)).run run =
        (.ok ⟨.deleted id (m.cascade id).length, none⟩,
          { run with store := m.withoutCascade id })) := by
  obtain ⟨w, hw, hdone⟩ := Model.cascade_visits m id
  have hwalk : ∀ w', Cascade.Visits m.attached (m.attached id) ⟨[id], []⟩ w' ↔ w' = w :=
    fun w' => ⟨fun h => h.unique hw, fun h => h ▸ hw⟩
  refine ⟨⟨w, hdone, hwalk⟩, Model.cascade_nodup m id, fun r => Model.mem_cascade,
    fun hm l x l' hc y hy => Model.mem_of_cascade_eq hm hc hy, ?_⟩
  rintro hm hid oracle name run rfl hlive
  rw [run_deleteElement hm oracle hlive hid, hm.eraseAll_cascade]

/-- A relationship on a relationship goes first, then that one, then the element with its visual
and all that was drawn to it. -/
theorem cascade_complete_sample :
    let oracle : Oracle := ⟨fun _ _ _ => true, fun _ => none, fun _ => none⟩
    let operations : List Model.Operation := [
      .createElement .businessActor "Clerk",
      .createElement .businessActor "Client",
      .createRelationship .serving "element-1" "element-2" "",
      .createRelationship .association "element-2" "relationship-3" "",
      .createView "Desk",
      .addToView "view-5" "element-1" ⟨0, 0, 1, 1⟩,
      .addToView "view-5" "element-2" ⟨2, 0, 1, 1⟩,
      .connectInView "view-5" "relationship-3" "visual-6" "visual-7"]
    let m := operations.foldl Model.Operation.run (.new "Office")
    m.WellFormed ∧ "element-1" ∈ m.entityIds ∧
      m.cascade "element-1" = ["relationship-4", "relationship-3"] ∧
      (∀ l x l', m.cascade "element-1" = l ++ x :: l' → ∀ y, m.Attached y x → y ∈ l) ∧
      (applyAction oracle (.deleteElement "element-1")).run (Run.start m) =
        (.ok ⟨.deleted "element-1" 2, none⟩, Run.start (m.withoutCascade "element-1")) := by
  intro oracle operations m
  have hm : m.WellFormed := ((Model.new_wellFiled "Office").runAll operations).toWellFormed
  have hid : "element-1" ∈ m.entityIds := by decide +kernel
  have hcascade : m.cascade "element-1" = ["relationship-4", "relationship-3"] := by
    decide +kernel
  obtain ⟨-, -, -, hordered, hdeleted⟩ := cascade_complete m "element-1"
  have hlive : (Run.start m).live? "element-1" = some "element-1" := by decide +kernel
  have hrun := hdeleted hm hid oracle "element-1" (Run.start m) rfl hlive
  rw [hcascade] at hrun
  exact ⟨hm, hid, hcascade, hordered fun x _ => hm.acyclic x, hrun⟩

end ArchChange.Execution
