import ArchChange.Validation.Report
/-!
What the semantic phase does with one action: when it finds no error, and what its tables gain
then. Neither depends on the warnings.
-/
namespace ArchChange

namespace Action

/-- The reference to a new element that an action declares. -/
def elementRef? : Action → Option String
  | createElement _ _ ref _ => ref
  | _ => none

/-- The reference to a new view that an action declares. -/
def viewRef? : Action → Option String
  | createView _ ref => ref
  | _ => none

end Action

namespace Validation

namespace Findings

@[simp] theorem errors_none : none.errors = [] := rfl

@[simp] theorem errors_error (index : Nat) (field : Field) (problem : SemanticProblem) :
    (error index field problem).errors ≠ [] := by
  simp [error]

@[simp] theorem errors_warningIf (condition : Bool) (index : Nat) (field : Field)
    (problem : SemanticProblem) : (warningIf condition index field problem).errors = [] := by
  cases condition <;> rfl

@[simp] theorem errors_append (f g : Findings) : (f ++ g).errors = f.errors ++ g.errors := rfl

end Findings

namespace Tables

variable {t : Tables} {id : String}

theorem isDeleted_iff : t.isDeleted id ↔ id ∈ t.deleted.map Prod.fst := by
  rw [isDeleted, List.lookup_isSome_iff, List.mem_map]
  constructor
  · rintro ⟨p, hp, he⟩
    exact ⟨p, hp, (beq_iff_eq.mp he).symm⟩
  · rintro ⟨p, hp, rfl⟩
    exact ⟨p, hp, beq_self_eq_true _⟩

theorem isDeleted_delete (index : Nat) (ids : List String) :
    (t.delete index ids).isDeleted id ↔ id ∈ ids ∨ t.isDeleted id := by
  rw [isDeleted_iff, isDeleted_iff, delete]
  simp

theorem deletedProblem?_eq_none_iff : t.deletedProblem? id = none ↔ ¬ t.isDeleted id := by
  rw [deletedProblem?, isDeleted, Option.map_eq_none_iff, Option.not_isSome_iff_eq_none]

theorem declares_iff :
    t.declares id ↔ (t.elementRefs.lookup id).isSome ∨ id ∈ t.viewRefs := by
  simp [declares]

end Tables

end Validation

namespace EntityKind

/-- The kind without its type. -/
def entityClass : EntityKind → EntityClass
  | element _ => .element
  | relationship _ => .relationship
  | view => .view

end EntityKind

namespace Validation

def Resolved.entityClass : Resolved → EntityClass
  | element _ => .element
  | relationship _ => .relationship
  | view => .view

section

variable {σ : Type} [EntityLookup σ] {oracle : Oracle} {store : σ} {scope : Option Scope}
  {t : Tables} {id : String}

/-- What an id names that is neither deleted nor, as something of the live model, out of scope. -/
inductive Names (store : σ) (scope : Option Scope) (t : Tables) (id : String) :
    EntityClass → Prop where
  | elementRef (h : (t.elementRefs.lookup id).isSome) : Names store scope t id .element
  | viewRef (h : t.elementRefs.lookup id = none) (hv : id ∈ t.viewRefs) :
    Names store scope t id .view
  | live (e : Entity) (h : ¬ t.declares id) (he : EntityLookup.entity? store id = some e)
    (hs : e.kind = .view ∨ inScope scope id) : Names store scope t id e.kind.entityClass

theorem names_of_resolve {r : Resolved} (h : resolve store scope t id = .ok r) :
    ¬ t.isDeleted id ∧ Names store scope t id r.entityClass := by
  unfold resolve at h
  split at h
  · cases h
  · next hd =>
    refine ⟨Tables.deletedProblem?_eq_none_iff.mp hd, ?_⟩
    split at h
    · next type hl =>
      cases h
      exact .elementRef (by rw [hl]; rfl)
    · next hl =>
      split at h
      · next hv =>
        cases h
        exact .viewRef hl (by simpa using hv)
      · next hv =>
        have hdeclares : ¬ t.declares id := by
          rw [Tables.declares_iff, hl]
          simpa using hv
        split at h
        · cases h
        · next e he =>
          obtain ⟨eid, name, kind⟩ := e
          cases kind with
          | view =>
            cases h
            exact .live _ hdeclares he (Or.inl rfl)
          | element type =>
            simp only at h
            split at h
            · next hs =>
              cases h
              exact .live _ hdeclares he (Or.inr hs)
            · cases h
          | relationship type =>
            simp only at h
            split at h
            · next hs =>
              cases h
              exact .live _ hdeclares he (Or.inr hs)
            · cases h

theorem resolve_of_names (hd : ¬ t.isDeleted id) {c : EntityClass} (h : Names store scope t id c) :
    ∃ r, resolve store scope t id = .ok r ∧ r.entityClass = c := by
  have hproblem : t.deletedProblem? id = none := Tables.deletedProblem?_eq_none_iff.mpr hd
  unfold resolve
  rw [hproblem]
  cases h with
  | elementRef h =>
    obtain ⟨type, hl⟩ := Option.isSome_iff_exists.mp h
    exact ⟨.element type, by simp [hl], rfl⟩
  | viewRef h hv => exact ⟨.view, by simp [h, hv], rfl⟩
  | live e h he hs =>
    rw [Tables.declares_iff, not_or, Option.not_isSome_iff_eq_none] at h
    obtain ⟨eid, name, kind⟩ := e
    cases kind with
    | view => exact ⟨.view, by simp [h, he], rfl⟩
    | element type =>
      have hs' : inScope scope id := hs.resolve_left (by simp)
      exact ⟨.element (some type), by simp [h, he, hs'], rfl⟩
    | relationship type =>
      have hs' : inScope scope id := hs.resolve_left (by simp)
      exact ⟨.relationship type, by simp [h, he, hs'], rfl⟩

/-- What ids resolve to, as far as its class is concerned. -/
theorem resolve_iff (p : EntityClass → Prop) :
    (∃ r, resolve store scope t id = .ok r ∧ p r.entityClass) ↔
      ¬ t.isDeleted id ∧ ∃ c, Names store scope t id c ∧ p c := by
  constructor
  · rintro ⟨r, hr, hp⟩
    obtain ⟨hd, hn⟩ := names_of_resolve hr
    exact ⟨hd, r.entityClass, hn, hp⟩
  · rintro ⟨hd, c, hn, hp⟩
    obtain ⟨r, hr, rfl⟩ := resolve_of_names hd hn
    exact ⟨r, hr, hp⟩

end

/-! What the phase asks of an action. -/

section

variable {σ : Type} [EntityLookup σ] (store : σ) (scope : Option Scope) (t : Tables)

/-- The id names something with the property, and it is not deleted. -/
def Resolves (p : EntityClass → Prop) (id : String) : Prop :=
  ¬ t.isDeleted id ∧ ∃ c, Names store scope t id c ∧ p c

/-- What makes the phase accept an action. -/
def Accepts : Action → Prop
  | .createElement _ _ ref _ | .createView _ ref => ∀ r, ref = some r → ¬ t.declares r
  | .createRelationship _ source target _ =>
    Resolves store scope t (· ≠ .view) source ∧ Resolves store scope t (· ≠ .view) target
  | .deleteElement id => Resolves store scope t (· ≠ .relationship) id
  | .deleteRelationship id => ¬ t.isDeleted id ∧ inScope scope id ∧
    ∃ e type, EntityLookup.entity? store id = some e ∧ e.kind = .relationship type
  | .addToView view element _ _ _ _ =>
    (¬ t.isDeleted view ∧ (view ∈ t.viewRefs ∨
      (¬ t.declares view ∧ ∃ e, EntityLookup.entity? store view = some e ∧ e.kind = .view))) ∧
    Resolves store scope t (· = .element) element
  | .renameElement id _ | .setProperty id _ _ | .removeProperty id _ | .setDocumentation id _
  | .moveToFolder id _ => Resolves store scope t (fun _ => True) id

/-- The action deletes the id, and maybe with it what is attached to it in the live model. -/
def Tables.Deletes (id : String) : Action → Prop
  | .deleteElement target =>
    id = target ∨ (¬ t.declares target ∧ id ∈ EntityLookup.cascade store target)
  | .deleteRelationship target => id = target
  | _ => False

/-- The tables after an accepted action. -/
structure Tables.Advances (action : Action) (t' : Tables) : Prop where
  elementRefs : ∀ ref, (t'.elementRefs.lookup ref).isSome ↔
    action.elementRef? = some ref ∨ (t.elementRefs.lookup ref).isSome
  viewRefs : ∀ ref, ref ∈ t'.viewRefs ↔ action.viewRef? = some ref ∨ ref ∈ t.viewRefs
  deleted : ∀ id, t'.isDeleted id ↔ t.Deletes store id action ∨ t.isDeleted id

end

section

variable {σ : Type} [EntityLookup σ] (oracle : Oracle) (store : σ) (scope : Option Scope)
  (index : Nat) (t : Tables)

theorem checkTarget_errors_iff {id : String} {record : Tables → Findings × Tables}
    (hr : (record t).1.errors = []) :
    (checkTarget store scope index id t record).1.errors = [] ↔
      Resolves store scope t (fun _ => True) id := by
  rw [Resolves, ← resolve_iff, checkTarget]
  cases resolve store scope t id with
  | error problem => simp
  | ok r => simp [hr]

theorem resolveEndpoint_errors_iff {field : Field} {id : String} :
    (resolveEndpoint store scope index field id t).1.errors = [] ↔
      Resolves store scope t (· ≠ .view) id := by
  rw [Resolves, ← resolve_iff, resolveEndpoint]
  cases resolve store scope t id with
  | error problem => simp
  | ok r => cases r <;> simp [Resolved.entityClass]

theorem checkPermitted_errors (source target : Option ElementType)
    (type : Option RelationshipType) :
    (checkPermitted oracle index source target type).errors = [] := by
  unfold checkPermitted
  split <;> simp

theorem checkDeleteElement_errors_iff {id : String} :
    (checkDeleteElement store scope index id t).1.errors = [] ↔
      Resolves store scope t (· ≠ .relationship) id := by
  rw [Resolves, ← resolve_iff, checkDeleteElement]
  cases resolve store scope t id with
  | error problem => simp
  | ok r => cases r <;> simp [Resolved.entityClass]

theorem checkDeleteRelationship_errors_iff {id : String} :
    (checkDeleteRelationship store scope index id t).1.errors = [] ↔
      ¬ t.isDeleted id ∧ inScope scope id ∧
        ∃ e type, EntityLookup.entity? store id = some e ∧ e.kind = .relationship type := by
  rw [← Tables.deletedProblem?_eq_none_iff, checkDeleteRelationship]
  cases t.deletedProblem? id with
  | some problem => simp
  | none =>
    cases he : EntityLookup.entity? store id with
    | none => simp
    | some e =>
      obtain ⟨eid, name, kind⟩ := e
      cases kind with
      | element type => simp
      | view => simp
      | relationship type => cases hs : inScope scope id <;> simp

theorem errorOf?_errors_iff {field : Field} {problem : Option SemanticProblem} :
    (errorOf? index field problem).errors = [] ↔ problem = none := by
  cases problem <;> simp [errorOf?]

theorem viewProblem?_eq_none_iff {id : String} :
    viewProblem? store t id = none ↔ ¬ t.isDeleted id ∧ (id ∈ t.viewRefs ∨
      (¬ t.declares id ∧ ∃ e, EntityLookup.entity? store id = some e ∧ e.kind = .view)) := by
  rw [← Tables.deletedProblem?_eq_none_iff, Tables.declares_iff, viewProblem?]
  cases t.deletedProblem? id with
  | some problem => simp
  | none =>
    by_cases hv : id ∈ t.viewRefs
    · simp [hv]
    · cases hl : t.elementRefs.lookup id with
      | some type => simp [hv]
      | none =>
        cases he : EntityLookup.entity? store id with
        | none => simp [hv]
        | some e => simp [hv]

theorem placedProblem?_eq_none_iff {id : String} :
    placedProblem? store scope t id = none ↔ Resolves store scope t (· = .element) id := by
  rw [Resolves, ← resolve_iff, placedProblem?]
  cases resolve store scope t id with
  | error problem => simp
  | ok r => cases r <;> simp [Resolved.entityClass]

theorem declareRef_errors_iff {ref : String} {declare : Tables → Tables} :
    (declareRef store index ref t declare).1.errors = [] ↔ ¬ t.declares ref := by
  unfold declareRef
  split
  · next h => simp [h]
  · next h => simp [h]

/-- The phase finds no error in an action just if it accepts it. -/
theorem checkAction_errors_iff (action : Action) :
    (checkAction oracle store scope index action t).1.errors = [] ↔
      Accepts store scope t action := by
  cases action with
  | createElement type name ref text =>
    cases ref with
    | none => simp [checkAction, Accepts]
    | some ref => simp only [checkAction, declareRef_errors_iff, Accepts]; simp
  | createView name ref =>
    cases ref with
    | none => simp [checkAction, Accepts]
    | some ref => simp only [checkAction, declareRef_errors_iff, Accepts]; simp
  | createRelationship type source target name =>
    simp only [checkAction, Findings.errors_append, List.append_eq_nil_iff,
      resolveEndpoint_errors_iff, checkPermitted_errors, and_true, Accepts]
  | deleteElement id => exact checkDeleteElement_errors_iff store scope index t
  | deleteRelationship id => exact checkDeleteRelationship_errors_iff store scope index t
  | renameElement id name => exact checkTarget_errors_iff store scope index t (by simp)
  | setProperty id key value => exact checkTarget_errors_iff store scope index t (by simp)
  | removeProperty id key => exact checkTarget_errors_iff store scope index t rfl
  | setDocumentation id text => exact checkTarget_errors_iff store scope index t (by simp)
  | moveToFolder id path => exact checkTarget_errors_iff store scope index t rfl
  | addToView view element x y width height =>
    simp only [checkAction, Findings.errors_append, List.append_eq_nil_iff, errorOf?_errors_iff,
      viewProblem?_eq_none_iff, placedProblem?_eq_none_iff, Accepts]

/-- An action that neither declares nor deletes leaves what is declared and deleted. -/
theorem advances_of_eq {action : Action} {t' : Tables} (helement : action.elementRef? = none)
    (hview : action.viewRef? = none) (hdeletes : ∀ id, ¬ t.Deletes store id action)
    (he : t'.elementRefs = t.elementRefs) (hv : t'.viewRefs = t.viewRefs)
    (hd : t'.deleted = t.deleted) : t.Advances store action t' where
  elementRefs := by simp [he, helement]
  viewRefs := by simp [hv, hview]
  deleted := by
    intro id
    simp [Tables.isDeleted, hd, hdeletes id]

theorem advances_checkTarget {action : Action} {id : String}
    {record : Tables → Findings × Tables} (helement : action.elementRef? = none)
    (hview : action.viewRef? = none) (hdeletes : ∀ id, ¬ t.Deletes store id action)
    (he : (record t).2.elementRefs = t.elementRefs) (hv : (record t).2.viewRefs = t.viewRefs)
    (hd : (record t).2.deleted = t.deleted) :
    t.Advances store action (checkTarget store scope index id t record).2 := by
  unfold checkTarget
  split
  · exact advances_of_eq store t helement hview hdeletes he hv hd
  · exact advances_of_eq store t helement hview hdeletes rfl rfl rfl

theorem advances_checkDeleteElement {id : String}
    (h : Resolves store scope t (· ≠ .relationship) id) :
    t.Advances store (.deleteElement id) (checkDeleteElement store scope index id t).2 := by
  obtain ⟨r, hr, hc⟩ := (resolve_iff (· ≠ .relationship)).mpr h
  have htables : (checkDeleteElement store scope index id t).2 = t.delete index
      ((if t.declares id then []
        else (EntityLookup.cascade store id).filter fun r => !t.isDeleted r) ++ [id]) := by
    rw [checkDeleteElement, hr]
    cases r with
    | element type => rfl
    | relationship type => exact absurd rfl hc
    | view => rfl
  rw [htables]
  refine ⟨by simp [Tables.delete, Action.elementRef?], by simp [Tables.delete, Action.viewRef?], ?_⟩
  intro x
  rw [Tables.isDeleted_delete, Tables.Deletes]
  by_cases hd : t.declares id
  · simp [hd]
  · by_cases hx : t.isDeleted x
    · simp [hx]
    · simp [hd, hx, or_comm]

theorem advances_checkDeleteRelationship {id : String}
    (h : Accepts store scope t (.deleteRelationship id)) :
    t.Advances store (.deleteRelationship id)
      (checkDeleteRelationship store scope index id t).2 := by
  obtain ⟨hd, hs, e, type, he, hk⟩ := h
  have htables : (checkDeleteRelationship store scope index id t).2 = t.delete index [id] := by
    rw [checkDeleteRelationship, Tables.deletedProblem?_eq_none_iff.mpr hd]
    simp [he, hk, hs]
  rw [htables]
  refine ⟨by simp [Tables.delete, Action.elementRef?], by simp [Tables.delete, Action.viewRef?], ?_⟩
  intro x
  rw [Tables.isDeleted_delete, Tables.Deletes, List.mem_singleton]

/-- What the tables gain by an accepted action. -/
theorem checkAction_advances {action : Action} (h : Accepts store scope t action) :
    t.Advances store action (checkAction oracle store scope index action t).2 := by
  cases action with
  | createElement type name ref text =>
    cases ref with
    | none => exact advances_of_eq store t rfl rfl (fun _ => not_false) rfl rfl rfl
    | some ref =>
      have hnew := h ref rfl
      have htables : (checkAction oracle store scope index
          (.createElement type name (some ref) text) t).2 =
            { t with elementRefs := (ref, oracle.elementType? type) :: t.elementRefs } := by
        simp only [checkAction, declareRef, hnew]
        rfl
      rw [htables]
      refine ⟨?_, by simp [Action.viewRef?], by simp [Tables.Deletes, Tables.isDeleted]⟩
      intro r
      simp only [List.lookup_isSome_iff, List.mem_cons, or_and_right, exists_or, exists_eq_left,
        beq_iff_eq, Action.elementRef?, Option.some.injEq]
      exact or_congr_left eq_comm
  | createView name ref =>
    cases ref with
    | none => exact advances_of_eq store t rfl rfl (fun _ => not_false) rfl rfl rfl
    | some ref =>
      have hnew := h ref rfl
      have htables : (checkAction oracle store scope index (.createView name (some ref)) t).2 =
          { t with viewRefs := ref :: t.viewRefs } := by
        simp only [checkAction, declareRef, hnew]
        rfl
      rw [htables]
      refine ⟨by simp [Action.elementRef?], ?_, by simp [Tables.Deletes, Tables.isDeleted]⟩
      intro r
      simp only [List.mem_cons, Action.viewRef?, Option.some.injEq]
      exact or_congr_left eq_comm
  | createRelationship type source target name =>
    exact advances_of_eq store t rfl rfl (fun _ => not_false) rfl rfl rfl
  | deleteElement id => exact advances_checkDeleteElement store scope index t h
  | deleteRelationship id => exact advances_checkDeleteRelationship store scope index t h
  | renameElement id name =>
    exact advances_checkTarget store scope index t rfl rfl (fun _ => not_false) rfl rfl rfl
  | setProperty id key value =>
    exact advances_checkTarget store scope index t rfl rfl (fun _ => not_false) rfl rfl rfl
  | removeProperty id key =>
    exact advances_checkTarget store scope index t rfl rfl (fun _ => not_false) rfl rfl rfl
  | setDocumentation id text =>
    exact advances_checkTarget store scope index t rfl rfl (fun _ => not_false) rfl rfl rfl
  | moveToFolder id path =>
    exact advances_checkTarget store scope index t rfl rfl (fun _ => not_false) rfl rfl rfl
  | addToView view element x y width height =>
    exact advances_of_eq store t rfl rfl (fun _ => not_false) rfl rfl rfl

/-- With a decoded plan a report says what the semantic phase finds. -/
theorem validate_of_plan {value : Json} {plan : ChangePlan}
    (h : (checkSchema oracle value).plan = some plan) :
    (validate oracle store scope value).schemaValid = true ∧
    (validate oracle store scope value).plan = some plan ∧
    ((validate oracle store scope value).semanticValid = true ↔
      (checkActions oracle store scope 0 .empty plan.actions).1.errors = []) := by
  simp [validate, h]

theorem validate_of_no_plan {value : Json} (h : (checkSchema oracle value).plan = none) :
    (validate oracle store scope value).schemaValid = false := by
  simp only [validate, h]

end

end Validation

end ArchChange
