import ArchChange.Execution.Apply
/-!
What steps make of a run. A step of a sequence runs from where the one before it has ended, and
the first that fails ends the sequence.
-/
namespace ArchChange.Execution

variable {σ α β : Type} {run run' : Run σ}

/-- The live id that an id stands for. -/
def Run.live? [EntityLookup σ] (run : Run σ) (id : String) : Option String :=
  ((run.elementRefs.lookup id).or (run.viewRefs.lookup id)).or
    ((EntityLookup.entity? run.store id).map Entity.id)

/-- The live id of a view that an id stands for. -/
def Run.liveView? [EntityLookup σ] (run : Run σ) (id : String) : Option String :=
  (run.viewRefs.lookup id).or
    (((EntityLookup.entity? run.store id).filter fun e => e.kind = .view).map Entity.id)

namespace Step

theorem run_get_bind (f : Run σ → Step σ β) : (get >>= f).run run = (f run).run run := rfl

theorem run_bind (x : Step σ α) (f : α → Step σ β) (run : Run σ) :
    (x >>= f).run run = match x.run run with
      | (.ok a, run') => (f a).run run'
      | (.error error, run') => (.error error, run') := by
  change ExceptT.bindCont f (x.run run).1 (x.run run).2 = _
  rcases x.run run with ⟨made, run'⟩
  cases made <;> rfl

theorem run_bind_of_ok {x : Step σ α} {a : α} (h : x.run run = (.ok a, run'))
    (f : α → Step σ β) : (x >>= f).run run = (f a).run run' := by
  rw [run_bind, h]

theorem run_bind_of_error {x : Step σ α} {error : ActionError}
    (h : x.run run = (.error error, run')) (f : α → Step σ β) :
    (x >>= f).run run = (.error error, run') := by
  rw [run_bind, h]

theorem run_call_of_ok {operation : σ → Except StoreError α × σ} {a : α} {store : σ}
    (h : operation run.store = (.ok a, store)) (wrap : StoreError → ActionError) :
    (call wrap operation).run run = (.ok a, { run with store }) := by
  change ((operation run.store).1.mapError wrap, { run with store := (operation run.store).2 }) = _
  rw [h]
  rfl

theorem run_call_of_error {operation : σ → Except StoreError α × σ} {error : StoreError}
    {store : σ} (h : operation run.store = (.error error, store))
    (wrap : StoreError → ActionError) :
    (call wrap operation).run run = (.error (wrap error), { run with store }) := by
  change ((operation run.store).1.mapError wrap, { run with store := (operation run.store).2 }) = _
  rw [h]
  rfl

theorem run_declareElement {id : String} (ref : Option String) :
    (declareElement id ref).run run = (.ok (), { run with
      elementRefs := (ref.map fun ref => (ref, id)).toList ++ run.elementRefs }) := by
  cases ref <;> rfl

theorem run_declareView {id : String} (ref : Option String) :
    (declareView id ref).run run = (.ok (), { run with
      viewRefs := (ref.map fun ref => (ref, id)).toList ++ run.viewRefs }) := by
  cases ref <;> rfl

section

variable [Store σ] {id : String}

theorem run_entity? (id : String) (run : Run σ) :
    (entity? id).run run = (.ok (EntityLookup.entity? run.store id), run) := rfl

theorem run_resolve? (id : String) (run : Run σ) :
    (resolve? id).run run = (.ok (run.live? id), run) := by
  unfold resolve? Run.live?
  rw [run_get_bind]
  cases run.elementRefs.lookup id with
  | some created => rfl
  | none => cases run.viewRefs.lookup id <;> rfl

theorem run_resolve_of_some {live : String} (h : run.live? id = some live)
    (missing : String → ActionError) : (resolve id missing).run run = (.ok live, run) := by
  rw [resolve, run_bind_of_ok (run_resolve? id run), h]
  rfl

theorem run_resolve_of_none (h : run.live? id = none) (missing : String → ActionError) :
    (resolve id missing).run run = (.error (missing id), run) := by
  rw [resolve, run_bind_of_ok (run_resolve? id run), h]
  rfl

theorem run_resolveView_of_some {live : String} (h : run.liveView? id = some live) :
    (resolveView id).run run = (.ok live, run) := by
  unfold Run.liveView? at h
  unfold resolveView
  rw [run_get_bind]
  cases hv : run.viewRefs.lookup id with
  | some created =>
    rw [hv] at h
    cases h
    rfl
  | none =>
    rw [hv, Option.none_or] at h
    simp only
    rw [run_bind_of_ok (run_entity? id run)]
    cases he : EntityLookup.entity? run.store id with
    | none => simp [he] at h
    | some e =>
      by_cases hk : e.kind = .view
      · rw [he, Option.filter_some_pos (by simpa using hk)] at h
        cases h
        simp only [hk, if_true]
        rfl
      · rw [he, Option.filter_some_neg (by simpa using hk)] at h
        cases h

theorem run_resolveView_of_none (h : run.liveView? id = none) :
    ∃ error, (resolveView id).run run = (.error error, run) := by
  unfold Run.liveView? at h
  unfold resolveView
  rw [run_get_bind]
  cases hv : run.viewRefs.lookup id with
  | some created => simp [hv] at h
  | none =>
    simp only
    rw [run_bind_of_ok (run_entity? id run)]
    cases he : EntityLookup.entity? run.store id with
    | none => exact ⟨_, rfl⟩
    | some e =>
      by_cases hk : e.kind = .view
      · simp [hv, he, hk] at h
      · simp only [hk, if_false]
        exact ⟨_, rfl⟩

end

end Step

end ArchChange.Execution
