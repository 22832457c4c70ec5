import ArchChange.Proofs.Execution.History
import ArchChange.Proofs.Model.Remainder
/-!
Elements that a plan creates and deletes again. Whatever the actions in between do with such an
element, only the last number tells that it was ever there.
-/
namespace ArchChange

/-- The action works on the entity with the id alone, or relates it to something. -/
def Action.Uses (ref : String) : Action → Prop
  | .renameElement id _ | .setProperty id _ _ | .removeProperty id _ | .setDocumentation id _
  | .moveToFolder id _ => id = ref
  | .addToView _ element _ _ _ _ => element = ref
  | .createRelationship _ source target _ => source = ref ∨ target = ref
  | .createElement _ _ _ _ | .deleteElement _ | .deleteRelationship _ | .createView _ _ => False

namespace Execution

open Model (OperatesTo SameRest)
open Model.Operation (Concerns)

variable {oracle : Oracle} {run run' : Run Model} {ref e : String} {action : Action}
  {actions : List Action}

theorem Run.live?_of_elementRefs (h : run.elementRefs.lookup ref = some e) :
    run.live? ref = some e := by
  rw [Run.live?, h, Option.some_or, Option.some_or]

/-- What an action needs that uses an id includes what the id stands for. -/
theorem live?_of_feasible (hf : Feasible oracle run action) (hu : action.Uses ref) :
    ∃ live, run.live? ref = some live := by
  cases action with
  | createElement label name ref text => exact False.elim hu
  | deleteElement id => exact False.elim hu
  | deleteRelationship id => exact False.elim hu
  | createView name ref => exact False.elim hu
  | createRelationship label source target name =>
    obtain ⟨-, hsource, htarget⟩ := hf
    rcases hu with rfl | rfl
    · exact hsource.imp fun _ h => h.1
    · exact htarget.imp fun _ h => h.1
  | addToView view element x y width height =>
    obtain rfl : element = ref := hu
    exact hf.2.imp fun _ h => h.1
  | moveToFolder id path =>
    obtain rfl : id = ref := hu
    exact hf.1.imp fun _ h => h.1
  | _ =>
    obtain rfl : _ = ref := hu
    exact hf.imp fun _ h => h.1

/-- An action that uses an entity calls for operations on that entity alone. -/
theorem Run.Calls.concerns {op : Model.Operation} (h : run.Calls op action)
    (hu : action.Uses ref) (hl : run.live? ref = some e) : op.Concerns e := by
  cases action with
  | createElement label name ref text => exact False.elim hu
  | deleteElement id => exact False.elim hu
  | deleteRelationship id => exact False.elim hu
  | createView name ref => exact False.elim hu
  | createRelationship label source target name =>
    obtain ⟨type, a, b, ha, hb, rfl⟩ := h
    rcases hu with rfl | rfl
    · exact Or.inl (Option.some.inj (ha.symm.trans hl))
    · exact Or.inr (Option.some.inj (hb.symm.trans hl))
  | addToView view element x y width height =>
    obtain rfl : element = ref := hu
    obtain ⟨v, live, bounds, -, hlive, rfl⟩ := h
    exact Option.some.inj (hlive.symm.trans hl)
  | moveToFolder id path =>
    obtain rfl : id = ref := hu
    obtain ⟨live, folder, hlive, rfl⟩ := h
    exact Option.some.inj (hlive.symm.trans hl)
  | _ =>
    obtain rfl : _ = ref := hu
    obtain ⟨live, hlive, rfl⟩ := h
    exact Option.some.inj (hlive.symm.trans hl)

theorem Makes.keeps (h : Makes run run' action) (hu : action.Uses ref) :
    run.store.entityIds ⊆ run'.store.entityIds ∧ run'.elementRefs = run.elementRefs := by
  cases action with
  | createRelationship label source target name =>
    obtain ⟨id, type, hgains, hrefs⟩ := h
    exact ⟨hgains.entityIds_subset, hrefs.elementRefs⟩
  | createElement label name ref text => exact False.elim hu
  | deleteElement id => exact False.elim hu
  | deleteRelationship id => exact False.elim hu
  | createView name ref => exact False.elim hu
  | _ => exact ⟨h.1.entityIds_subset, h.2.elementRefs⟩

/-- Actions that cannot be made leave a run as it is. -/
theorem judge_of_not_feasible (hm : run.store.WellFormed)
    (h : ∀ action ∈ actions, ¬ Feasible oracle run action) :
    (judge oracle false false run actions).2 = run := by
  induction actions with
  | nil => rfl
  | cons action actions ih =>
    rcases accounts_applyAction hm action with ⟨hf, -⟩ | ⟨-, error, hrun⟩
    · exact absurd hf (h action List.mem_cons_self)
    · rw [judge_cons_false, hrun]
      exact ih fun a ha => h a (List.mem_cons_of_mem _ ha)

/-- Without what a reference is to name, neither using nor deleting it comes to anything. -/
theorem judge_of_not_mem {m : Model} (hm : m.WellFormed) (href : ref ∉ m.entityIds)
    (hu : ∀ action ∈ actions, action.Uses ref) :
    (judge oracle false false (.start m) (actions ++ [.deleteElement ref])).2 = .start m := by
  have hmissing : EntityLookup.entity? m ref = none := Model.entity?_eq_none_iff.mpr href
  have hl : (Run.start m).live? ref = none := by
    rw [Run.live?, Run.start, hmissing]
    rfl
  refine judge_of_not_feasible hm fun action ha hf => ?_
  rcases List.mem_append.mp ha with ha | ha
  · obtain ⟨live, hlive⟩ := live?_of_feasible hf (hu action ha)
    simp [hl] at hlive
  · obtain rfl := List.mem_singleton.mp ha
    obtain ⟨live, hlive, -⟩ := hf
    simp [hl] at hlive

/-- The run stands where the reference names an entity that is there. -/
structure Names (run : Run Model) (ref e : String) : Prop where
  wellFormed : run.store.WellFormed
  named : run.elementRefs.lookup ref = some e
  mem : e ∈ run.store.entityIds

/-- Using a reference keeps it, and only concerns what it names. -/
theorem Names.step (oracle : Oracle) (h : Names run ref e) (hu : action.Uses ref) :
    Names ((applyAction oracle action).run run).2 ref e ∧
      OperatesTo (Concerns e) run.store ((applyAction oracle action).run run).2.store := by
  have hlive := Run.live?_of_elementRefs h.named
  have hperforms : OperatesTo (Concerns e) run.store
      ((applyAction oracle action).run run).2.store :=
    (Performs.applyAction oracle run action).mono fun op hop => hop.concerns hu hlive
  refine ⟨?_, hperforms⟩
  rcases accounts_applyAction h.wellFormed action with
    ⟨-, done, run', hrun, hmakes⟩ | ⟨-, error, hrun⟩
  · obtain ⟨hids, hrefs⟩ := hmakes.keeps hu
    have hwell := hperforms.wellFormed h.wellFormed
    rw [hrun] at hwell ⊢
    exact ⟨hwell, hrefs ▸ h.named, hids h.mem⟩
  · rw [hrun]
    exact h

theorem Names.judge (oracle : Oracle) (h : Names run ref e)
    (hu : ∀ action ∈ actions, action.Uses ref) :
    Names (judge oracle false false run actions).2 ref e ∧
      OperatesTo (Concerns e) run.store (judge oracle false false run actions).2.store := by
  induction actions generalizing run with
  | nil => exact ⟨h, .refl _ _⟩
  | cons action actions ih =>
    obtain ⟨hnames, hfirst⟩ := h.step oracle (hu action List.mem_cons_self)
    obtain ⟨hlast, hrest⟩ := ih hnames fun a ha => hu a (List.mem_cons_of_mem _ ha)
    rw [judge_cons_false]
    exact ⟨hlast, hfirst.trans hrest⟩

/-- The store after an element was created is the one after documenting it. -/
theorem store_createElement (run : Run Model) {label : String} {type : ElementType}
    (ht : oracle.elementType? label = some type) (name : String) (ref text : Option String) :
    let created := { run with store := (run.store.createElement type name).2 }
    ((applyAction oracle (.createElement label name ref text)).run run).2.store =
      ((Step.document (run.store.allocate "element").1 text).run created).2.store := by
  intro created
  have hcreate : Store.createElement type name run.store =
      (.ok (run.store.allocate "element").1, (run.store.createElement type name).2) := rfl
  simp only [applyAction, ht]
  rw [Step.run_bind_of_ok (Step.run_call_of_ok hcreate .store)]
  rcases hdocument : (Step.document (run.store.allocate "element").1 text).run created with
    ⟨made, run'⟩
  cases made with
  | error error => rw [Step.run_bind_of_error hdocument]
  | ok done =>
    rw [Step.run_bind_of_ok hdocument, Step.run_bind_of_ok (Step.run_declareElement ref)]
    rfl

/-- Creating an element under a reference names it, and the rest of the store is what it was. -/
theorem names_createElement {label : String} {type : ElementType} (hm : run.store.WellFormed)
    (ht : oracle.elementType? label = some type) (name ref : String) (text : Option String) :
    let run' := ((applyAction oracle (.createElement label name (some ref) text)).run run).2
    Names run' ref (run.store.allocate "element").1 ∧
      run'.store.withoutCascade (run.store.allocate "element").1 =
        { run.store with nextId := run'.store.nextId } := by
  intro run'
  obtain ⟨store, hrun, hgains⟩ := run_createElement hm ht name (some ref) text
  have hstore := store_createElement run ht name (some ref) text
  have hcreated : (run.store.createElement type name).2.WellFormed :=
    Model.wellFormed_createElement hm
  have hdocument : Performs (Concerns (run.store.allocate "element").1)
      (Step.document (run.store.allocate "element").1 text)
      { run with store := (run.store.createElement type name).2 } := .document (fun _ => rfl) text
  rw [Performs, ← hstore] at hdocument
  have hrest := hdocument.sameRest hcreated
  rw [SameRest, Model.withoutCascade_createElement hm] at hrest
  refine ⟨?_, hrest⟩
  have hrun' : run' = _ := congrArg Prod.snd hrun
  rw [hrun']
  exact ⟨hgains.wellFormed, by simp [declared], hgains.mem⟩

/-- A plan that creates an element, uses it in any way and deletes it again leaves a model that
differs in the last number at most, whether its actions could be made or not; and if the counter has
room for all actions, that number is not less than before. -/
theorem execute_transient {m : Model} {label name : String} {text : Option String}
    (oracle : Oracle) (plan : ChangePlan) (uses : List Action) (hm : m.WellFormed)
    (href : ref ∉ m.entityIds) (hready : plan.status = .ready)
    (hactions : plan.actions =
      .createElement label name (some ref) text :: (uses ++ [.deleteElement ref]))
    (huses : ∀ action ∈ uses, action.Uses ref) :
    let m' := (execute oracle ⟨.apply, false, false⟩ plan m).2
    m' = { m with nextId := m'.nextId } ∧
      (m.HasRoom plan.actions.length → m.nextId ≤ m'.nextId) := by
  intro m'
  have hm' : m' = (judge oracle false false (.start m) plan.actions).2.store :=
    congrArg Prod.snd (applyPlan_eq hready oracle ⟨.apply, false, false⟩ m)
  have hnext : m.HasRoom plan.actions.length → m.nextId ≤ m'.nextId := by
    intro hroom
    have hgrown : Model.Allocates plan.actions.length m
        (runAfter oracle m plan.actions plan.actions.length).store :=
      allocates_runAfter hroom.reach_lt (Nat.le_refl _)
    rw [runAfter, List.take_length, ← hm'] at hgrown
    exact hgrown.nextId_le
  refine ⟨?_, hnext⟩
  rw [hactions, judge_cons_false] at hm'
  cases ht : oracle.elementType? label with
  | none =>
    have hfirst : ((applyAction oracle (.createElement label name (some ref) text)).run
        (.start m)).2 = .start m := by
      simp only [applyAction, ht]
      rfl
    rw [hfirst, judge_of_not_mem hm href huses] at hm'
    rw [hm']
    rfl
  | some type =>
    have hstart : (Run.start m).store.WellFormed := hm
    obtain ⟨hnames, hrest⟩ := names_createElement hstart ht name ref text
    obtain ⟨hused, hpast⟩ := hnames.judge oracle huses
    rw [judge_append, judge_cons_false, run_deleteElement hused.wellFormed oracle
      (Run.live?_of_elementRefs hused.named) hused.mem, hused.wellFormed.eraseAll_cascade] at hm'
    have hsame := hpast.sameRest hnames.wellFormed
    rw [SameRest, hrest] at hsame
    rw [hm']
    exact hsame

/-- A relationship from the new element to a relationship, one to the new element itself, a visual
and a move leave nothing behind; four numbers are used up. -/
theorem execute_transient_sample :
    let oracle : Oracle := ⟨fun _ _ _ => true, fun _ => some .businessRole, fun _ => some .serving⟩
    let m := [Model.Operation.createElement .businessActor "Clerk",
      .createElement .businessActor "Client",
      .createRelationship .serving "element-1" "element-2" "",
      .createView "Desk"].foldl Model.Operation.run (.new "Office")
    let plan : ChangePlan := ⟨.v1, .ready, "", [], [
      .createElement "business-role" "Guest" (some "guest") (some "For a day."),
      .renameElement "guest" "Visitor",
      .createRelationship "serving" "guest" "relationship-3" none,
      .createRelationship "serving" "guest" "guest" none,
      .addToView "view-4" "guest" none none none none,
      .moveToFolder "guest" "Strategy",
      .deleteElement "guest"]⟩
    m.WellFormed ∧ "guest" ∉ m.entityIds ∧ m.HasRoom plan.actions.length ∧
      (execute oracle ⟨.apply, false, false⟩ plan m).2 = { m with nextId := 8 } ∧
      m.nextId ≤ 8 := by
  intro oracle m plan
  have hm : m.WellFormed := ((Model.new_wellFiled "Office").runAll _).toWellFormed
  have href : "guest" ∉ m.entityIds := by decide +kernel
  have hnext : (execute oracle ⟨.apply, false, false⟩ plan m).2.nextId = 8 := by decide +kernel
  have h := execute_transient oracle plan (plan.actions.tail.take 5) hm href rfl rfl
    (by simp [plan, Action.Uses])
  have hroom : m.HasRoom plan.actions.length := by decide +kernel
  rw [← hnext]
  exact ⟨hm, href, hroom, h.1, h.2 hroom⟩

end Execution

end ArchChange
