import ArchChange.Proofs.Execution.Preservation
import ArchChange.Proofs.Model.Connections
/-!
Connections over any number of runs. The actions of a plan draw none, and what is drawn after them
joins the visuals of what a relationship joins, once on each view.
-/
namespace ArchChange.Execution

open Model (Operation OperatesTo)

variable {m m' : Model} {oracle : Oracle}

/-- Drawing connections leaves the relationships as they are. -/
theorem relationships_of_connects (h : OperatesTo Connects m m') :
    m'.relationships = m.relationships := by
  induction h with
  | refl => rfl
  | tail _ hstep ih =>
    obtain ⟨op, ⟨view, relationship, source, target, rfl⟩, rfl⟩ := hstep
    rw [← ih]
    change (Model.connectInView view relationship source target _).2.relationships = _
    rcases Model.connectInView_cases _ view relationship source target with
      ⟨error, he⟩ | ⟨v, -, -, -, -, he⟩
    · rw [he]
    · rw [he]
      rfl

theorem shows_of_visualOf? {v : View} {entity visual : String}
    (h : visualOf? v.children entity = some visual) : v.Shows visual entity := by
  obtain ⟨c, hc, rfl⟩ := Option.map_eq_some_iff.mp h
  exact ⟨c, List.mem_of_find?_eq_some hc, rfl, by simpa using List.find?_some hc⟩

/-- Going through relationships, those that the view draws already are known, or are passed. -/
theorem faithful_connectAll (hm : m.WellFormed) (hf : m.Faithful) {v : View}
    (hv : m.view? v.id = some v) {drawn : List String} {rs : List Relationship}
    (hdrawn : ∀ id ∈ v.connections.map Connection.relationshipId,
      id ∈ drawn ∨ id ∉ rs.map Relationship.id)
    (hrs : rs ⊆ m.relationships) (hnodup : (rs.map Relationship.id).Nodup) (added : Nat) :
    (connectAll v.id v.children drawn added rs m).2.Faithful := by
  induction rs generalizing m v added with
  | nil => exact hf
  | cons r rs ih =>
    obtain ⟨hr, hrest⟩ := List.cons_subset.mp hrs
    obtain ⟨hfirst, hlater⟩ := List.nodup_cons.mp hnodup
    have hpassed : ∀ id ∈ v.connections.map Connection.relationshipId,
        id ∈ drawn ∨ id ∉ rs.map Relationship.id := by
      intro id hid
      exact (hdrawn id hid).imp_right fun hnot hmem => hnot (List.mem_cons_of_mem _ hmem)
    rw [connectAll]
    split
    · exact ih hm hf hv hpassed hrest hlater added
    · next hnew =>
      have hnot : r.id ∉ v.connections.map Connection.relationshipId := by
        intro hmem
        rcases hdrawn r.id hmem with hdrawn | hpast
        · exact hnew (List.contains_iff_mem.mpr hdrawn)
        · exact hpast List.mem_cons_self
      split
      · next source target hsource htarget =>
        rcases hf.connectInView hm hv hr hnot (shows_of_visualOf? hsource)
          (shows_of_visualOf? htarget) with
          ⟨error, he⟩ | ⟨c, m', he, hc, hm', hf', hrelationships, hv'⟩
        · have hcall : Store.connectInView v.id r.id source target m = (.error error, m) := he
          rw [hcall]
          exact hf
        · have hcall : Store.connectInView v.id r.id source target m = (.ok c.id, m') := he
          rw [hcall]
          refine ih (v := v.draw c) hm' hf' hv' ?_ (hrelationships ▸ hrest) hlater (added + 1)
          intro id hid
          rw [View.draw, List.map_append] at hid
          rcases List.mem_append.mp hid with hid | hid
          · exact hpassed id hid
          · obtain rfl : id = c.relationshipId := List.mem_singleton.mp hid
            exact Or.inr (hc ▸ hfirst)
      · exact ih hm hf hv hpassed hrest hlater added

theorem faithful_connectView (hm : m.WellFormed) (hf : m.Faithful) (view : String) :
    (connectView view m.relationships m).2.Faithful := by
  rw [connectView_eq]
  cases hv : m.view? view with
  | none => exact hf
  | some v =>
    obtain rfl := (Model.mem_of_view? hv).2
    exact faithful_connectAll hm hf hv (fun _ hid => Or.inl hid) (List.Subset.refl _)
      hm.relationshipIds_nodup 0

theorem faithful_connectViews (hm : m.WellFormed) (hf : m.Faithful) (report : ConnectReport)
    (views : List String) : (connectViews m.relationships report views m).2.Faithful := by
  induction views generalizing m report with
  | nil => exact hf
  | cons view views ih =>
    have hdraws := operatesTo_connectView m view m.relationships
    have hrest := ih (hdraws.wellFormed hm) (faithful_connectView hm hf view)
    rw [relationships_of_connects hdraws] at hrest
    exact hrest _

/-- Every stage of the actions of a plan is faithful. -/
theorem faithful_judge {run : Run Model} (hm : run.store.WellFormed) (hf : run.store.Faithful)
    (oracle : Oracle) (stopOnError halted : Bool) (actions : List Action) :
    (judge oracle stopOnError halted run actions).2.store.Faithful := by
  refine (operatesTo_judge run stopOnError halted actions).faithful ?_ hm hf
  intro op hop view relationship source target heq
  exact hop ⟨view, relationship, source, target, heq⟩

theorem faithful_execute (hm : m.WellFormed) (hf : m.Faithful) (oracle : Oracle)
    (options : Options) (plan : ChangePlan) : (execute oracle options plan m).2.Faithful := by
  unfold execute
  cases options.mode with
  | preview => exact hf
  | apply =>
    by_cases hready : plan.status = .ready
    · simp only [applyPlan_eq hready, conclude]
      have hactions :
          OperatesTo _ m (judge oracle options.stopOnError false (.start m) plan.actions).2.store :=
        operatesTo_judge (.start m) options.stopOnError false plan.actions
      have hfaithful := faithful_judge (show (Run.start m).store.WellFormed from hm) hf oracle
        options.stopOnError false plan.actions
      split
      · exact faithful_connectViews (hactions.wellFormed hm) hfaithful _ _
      · exact hfaithful
    · simp only [applyPlan_of_not_ready hready]
      exact hf

/-- The models that plans, each run with an oracle and options of its own, lead through. -/
def course (m : Model) : List (Oracle × Options × ChangePlan) → List Model
  | [] => [m]
  | (oracle, options, plan) :: runs => m :: course (execute oracle options plan m).2 runs

theorem faithful_course (hm : m.WellFormed) (hf : m.Faithful)
    (runs : List (Oracle × Options × ChangePlan)) :
    ∀ m' ∈ course m runs, m'.WellFormed ∧ m'.Faithful := by
  induction runs generalizing m with
  | nil =>
    rintro m' hmem
    rw [List.mem_singleton.mp hmem]
    exact ⟨hm, hf⟩
  | cons run runs ih =>
    obtain ⟨oracle, options, plan⟩ := run
    refine List.forall_mem_cons.mpr ⟨⟨hm, hf⟩, ?_⟩
    exact ih ((operatesTo_execute oracle options plan m).wellFormed hm)
      (faithful_execute hm hf oracle options plan)

/-- However many plans are run on a new model, in each model between two of them, and in each model
that the actions of the next one lead through, a view holds one connection for a relationship at
most, and every connection joins a visual of what the relationship starts from to a visual of what
it leads to. -/
theorem connections_faithful (name : String) (runs : List (Oracle × Options × ChangePlan)) :
    ∀ m ∈ course (.new name) runs, m.Faithful ∧
      ∀ (oracle : Oracle) (stopOnError : Bool) (actions : List Action),
        (judge oracle stopOnError false (.start m) actions).2.store.Faithful := by
  intro m hmem
  obtain ⟨hm, hf⟩ := faithful_course (Model.new_wellFiled name).toWellFormed
    (Model.faithful_new name) runs m hmem
  refine ⟨hf, fun oracle stopOnError actions => ?_⟩
  exact faithful_judge (show (Run.start m).store.WellFormed from hm) hf oracle stopOnError false
    actions

/-- The second of two plans places an element on a view where its relationship is drawn already. -/
theorem connections_faithful_sample :
    let oracle : Oracle :=
      ⟨fun _ _ _ => true, fun _ => some .businessActor, fun _ => some .association⟩
    let runs : List (Oracle × Options × ChangePlan) := [
      (oracle, ⟨.apply, false, true⟩, ⟨.v1, .ready, "", [], [
        .createElement "BusinessActor" "Clerk" (some "clerk") none,
        .createElement "BusinessActor" "Teller" (some "teller") none,
        .createRelationship "Association" "clerk" "teller" none,
        .createView "Desk" (some "desk"),
        .addToView "desk" "clerk" none none none none,
        .addToView "desk" "teller" none none none none]⟩),
      (oracle, ⟨.apply, false, true⟩, ⟨.v1, .ready, "", [], [
        .addToView "view-4" "element-1" none none none none]⟩)]
    ∃ m ∈ course (.new "Office") runs,
      m.views.map (fun v => (v.children.length, v.connections.length)) = [(3, 1)] ∧ m.Faithful := by
  intro oracle runs
  have hlast : (course (.new "Office") runs)[2]? = some _ := rfl
  refine ⟨_, List.mem_of_getElem? hlast, by decide +kernel, ?_⟩
  exact (connections_faithful "Office" runs _ (List.mem_of_getElem? hlast)).1

end ArchChange.Execution
