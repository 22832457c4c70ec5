import ArchChange.Proofs.Validation.Tables
import Mathlib.Tactic.MkIffOfInductiveProp
/-!
Which plans the semantic phase accepts. A plan is well scoped if every id of every action names
what it should, where a declaration or deletion counts from the next action on; the tables of the
phase hold what the actions before have declared and deleted, so it accepts these plans alone.
-/
namespace ArchChange

/-- The ids that an action names, with their fields. -/
def Action.idFields : Action → List (Field × String)
  | createElement _ _ _ _ | createView _ _ => []
  | renameElement id _ | deleteElement id | setProperty id _ _ | removeProperty id _
  | setDocumentation id _ | deleteRelationship id | moveToFolder id _ => [(.id, id)]
  | createRelationship _ source target _ => [(.sourceId, source), (.targetId, target)]
  | addToView view element _ _ _ _ => [(.viewId, view), (.elementId, element)]

namespace Validation

def elementRefs (actions : List Action) : List String :=
  actions.filterMap Action.elementRef?

def viewRefs (actions : List Action) : List String :=
  actions.filterMap Action.viewRef?

def Declared (actions : List Action) (ref : String) : Prop :=
  ref ∈ elementRefs actions ∨ ref ∈ viewRefs actions

section

variable {σ : Type} [EntityLookup σ] (store : σ) (scope : Option Scope)

/-- The action deletes the id: itself, or with an element of the live model to which it is
attached. -/
def Deletes (earlier : List Action) (id : String) : Action → Prop
  | .deleteElement target =>
    id = target ∨ (¬ Declared earlier target ∧ id ∈ EntityLookup.cascade store target)
  | .deleteRelationship target => id = target
  | _ => False

/-- One of the actions deletes the id. -/
def Deleted (actions : List Action) (id : String) : Prop :=
  ∃ before action after, actions = before ++ action :: after ∧ Deletes store before id action

/-- What the id names: a reference, or else an entity of the live model. -/
def class? (earlier : List Action) (id : String) : Option EntityClass :=
  if id ∈ elementRefs earlier then some .element
  else if id ∈ viewRefs earlier then some .view
  else (EntityLookup.entity? store id).map fun e => e.kind.entityClass

/-- The id in the field names a reference or a live entity; one other than a view, and in a field
other than that for a view, has to be in scope. -/
def Known (earlier : List Action) (field : Field) (id : String) : Prop :=
  Declared earlier id ∨ ∃ e, EntityLookup.entity? store id = some e ∧
    (field = .viewId ∨ e.kind = .view ∨ inScope scope id)

/-- What the ids of the action name is of the right kind. -/
def KindsFit (earlier : List Action) : Action → Prop
  | .deleteElement id => class? store earlier id ≠ some .relationship
  | .createRelationship _ source target _ =>
    class? store earlier source ≠ some .view ∧ class? store earlier target ≠ some .view
  | .addToView view element _ _ _ _ =>
    (view ∈ viewRefs earlier ∨
      (¬ Declared earlier view ∧ class? store earlier view = some .view)) ∧
    class? store earlier element = some .element
  | .deleteRelationship id => inScope scope id ∧
    ∃ e type, EntityLookup.entity? store id = some e ∧ e.kind = .relationship type
  | _ => True

/-- The action fits what the actions before it have declared and deleted. -/
@[mk_iff]
structure WellScopedAt (earlier : List Action) (action : Action) : Prop where
  refs : ∀ ref, action.elementRef? = some ref ∨ action.viewRef? = some ref → ¬ Declared earlier ref
  alive : ∀ f ∈ action.idFields, ¬ Deleted store earlier f.2
  known : action.op ≠ .deleteRelationship →
    ∀ f ∈ action.idFields, Known store scope earlier f.1 f.2
  kinds : KindsFit store scope earlier action

/-- Each action fits the actions before it. -/
def WellScoped (actions : List Action) : Prop :=
  ∀ k, (h : k < actions.length) → WellScopedAt store scope (actions.take k) actions[k]

end

section

variable {σ : Type} [EntityLookup σ] {store : σ} {scope : Option Scope} {earlier : List Action}
  {action : Action} {id : String} {t t' : Tables}

theorem mem_elementRefs_append {ref : String} : ref ∈ elementRefs (earlier ++ [action]) ↔
    action.elementRef? = some ref ∨ ref ∈ elementRefs earlier := by
  simp [elementRefs, or_comm]

theorem mem_viewRefs_append {ref : String} : ref ∈ viewRefs (earlier ++ [action]) ↔
    action.viewRef? = some ref ∨ ref ∈ viewRefs earlier := by
  simp [viewRefs, or_comm]

theorem deleted_append : Deleted store (earlier ++ [action]) id ↔
    Deletes store earlier id action ∨ Deleted store earlier id := by
  constructor
  · rintro ⟨before, a, after, heq, h⟩
    rcases List.eq_nil_or_concat after with rfl | ⟨after, z, rfl⟩
    · obtain ⟨rfl, ha⟩ := List.append_inj' heq rfl
      rw [List.singleton_inj.mp ha]
      exact Or.inl h
    · have heq' : earlier ++ [action] = (before ++ a :: after) ++ [z] := by simpa using heq
      exact Or.inr ⟨before, a, after, (List.append_inj' heq' rfl).1, h⟩
  · rintro (h | ⟨before, a, after, rfl, h⟩)
    · exact ⟨earlier, action, [], rfl, h⟩
    · exact ⟨before, a, after ++ [action], by simp, h⟩

/-- What is known is of some kind. -/
theorem Known.class? {field : Field} (h : Known store scope earlier field id) :
    ∃ c, class? store earlier id = some c := by
  unfold Validation.class?
  split
  · exact ⟨_, rfl⟩
  · split
    · exact ⟨_, rfl⟩
    · next hnot hnot' =>
      obtain ⟨e, he, -⟩ := h.resolve_left (not_or.mpr ⟨hnot, hnot'⟩)
      exact ⟨_, by rw [he, Option.map_some]⟩

/-- The tables hold what the actions so far have declared and deleted. -/
structure Agrees (store : σ) (earlier : List Action) (t : Tables) : Prop where
  elementRefs : ∀ ref, (t.elementRefs.lookup ref).isSome ↔ ref ∈ elementRefs earlier
  viewRefs : ∀ ref, ref ∈ t.viewRefs ↔ ref ∈ viewRefs earlier
  deleted : ∀ id, t.isDeleted id ↔ Deleted store earlier id

namespace Agrees

theorem empty (store : σ) : Agrees store [] .empty where
  elementRefs := by simp [Tables.empty, Validation.elementRefs]
  viewRefs := by simp [Tables.empty, Validation.viewRefs]
  deleted := by simp [Tables.isDeleted, Tables.empty, Deleted]

variable (h : Agrees store earlier t)

include h

theorem declares_iff (ref : String) : t.declares ref ↔ Declared earlier ref := by
  rw [Tables.declares_iff, h.elementRefs, h.viewRefs, Declared]

theorem deletes_iff : t.Deletes store id action ↔ Deletes store earlier id action := by
  cases action <;> simp only [Tables.Deletes, Deletes, h.declares_iff]

/-- The tables keep up with an accepted action. -/
theorem advance (ha : t.Advances store action t') : Agrees store (earlier ++ [action]) t' where
  elementRefs ref := by rw [ha.elementRefs, h.elementRefs, mem_elementRefs_append]
  viewRefs ref := by rw [ha.viewRefs, h.viewRefs, mem_viewRefs_append]
  deleted id := by rw [ha.deleted, h.deleted, h.deletes_iff, deleted_append]

theorem names_iff {field : Field} (hf : field ≠ .viewId) {c : EntityClass} :
    Names store scope t id c ↔
      Known store scope earlier field id ∧ class? store earlier id = some c := by
  constructor
  · intro hn
    cases hn with
    | elementRef hl =>
      have hmem := (h.elementRefs id).mp hl
      exact ⟨Or.inl (Or.inl hmem), by rw [class?, if_pos hmem]⟩
    | viewRef hl hv =>
      have hnot : id ∉ Validation.elementRefs earlier := by
        rw [← h.elementRefs, hl]
        simp
      have hmem := (h.viewRefs id).mp hv
      exact ⟨Or.inl (Or.inr hmem), by rw [class?, if_neg hnot, if_pos hmem]⟩
    | live e hd he hs =>
      rw [h.declares_iff, Declared, not_or] at hd
      refine ⟨Or.inr ⟨e, he, Or.inr hs⟩, ?_⟩
      rw [class?, if_neg hd.1, if_neg hd.2, he, Option.map_some]
  · rintro ⟨hk, hc⟩
    unfold class? at hc
    split at hc
    · next hmem =>
      cases hc
      exact .elementRef ((h.elementRefs id).mpr hmem)
    · next hnot =>
      split at hc
      · next hmem =>
        cases hc
        refine .viewRef ?_ ((h.viewRefs id).mpr hmem)
        rwa [← Option.not_isSome_iff_eq_none, h.elementRefs]
      · next hnot' =>
        obtain ⟨e, he, rfl⟩ := Option.map_eq_some_iff.mp hc
        have hd : ¬ Declared earlier id := not_or.mpr ⟨hnot, hnot'⟩
        obtain ⟨e', he', hs⟩ := hk.resolve_left hd
        obtain rfl : e = e' := Option.some.inj (he.symm.trans he')
        exact .live e (by rwa [h.declares_iff]) he (hs.resolve_left hf)

/-- An id is accepted if it is not deleted, known and of the right kind. -/
theorem resolves_iff {field : Field} (hf : field ≠ .viewId) (p : EntityClass → Prop) :
    Resolves store scope t p id ↔ ¬ Deleted store earlier id ∧
      Known store scope earlier field id ∧ ∀ c, class? store earlier id = some c → p c := by
  rw [Resolves, h.deleted]
  refine and_congr_right fun _ => ?_
  constructor
  · rintro ⟨c, hn, hp⟩
    obtain ⟨hk, hc⟩ := (h.names_iff hf).mp hn
    refine ⟨hk, ?_⟩
    intro d hd
    obtain rfl : c = d := Option.some.inj (hc.symm.trans hd)
    exact hp
  · rintro ⟨hk, hp⟩
    obtain ⟨c, hc⟩ := hk.class?
    exact ⟨c, (h.names_iff hf).mpr ⟨hk, hc⟩, hp c hc⟩

theorem resolves_ne_iff {field : Field} (hf : field ≠ .viewId) (d : EntityClass) :
    Resolves store scope t (· ≠ d) id ↔ ¬ Deleted store earlier id ∧
      Known store scope earlier field id ∧ class? store earlier id ≠ some d := by
  have hne : (∀ c, class? store earlier id = some c → c ≠ d) ↔
      class? store earlier id ≠ some d := by
    constructor
    · intro hp he
      exact hp d he rfl
    · rintro hn c hc rfl
      exact hn hc
  rw [h.resolves_iff hf, hne]

theorem resolves_eq_iff {field : Field} (hf : field ≠ .viewId) (d : EntityClass) :
    Resolves store scope t (· = d) id ↔ ¬ Deleted store earlier id ∧
      Known store scope earlier field id ∧ class? store earlier id = some d := by
  rw [h.resolves_iff hf]
  refine and_congr_right fun _ => and_congr_right fun hk => ?_
  obtain ⟨c, hc⟩ := hk.class?
  rw [hc]
  simp

/-- An action that changes what one id names fits if that is known and not deleted. -/
theorem target_iff (helement : action.elementRef? = none) (hview : action.viewRef? = none)
    (hfields : action.idFields = [(.id, id)]) (hop : action.op ≠ .deleteRelationship)
    (hkinds : KindsFit store scope earlier action) :
    Resolves store scope t (fun _ => True) id ↔ WellScopedAt store scope earlier action := by
  have hid : Field.id ≠ .viewId := by simp
  rw [h.resolves_iff hid, wellScopedAt_iff, helement, hview, hfields]
  simp [hop, hkinds]

theorem view_iff (scope : Option Scope) : (id ∈ t.viewRefs ∨
      (¬ t.declares id ∧ ∃ e, EntityLookup.entity? store id = some e ∧ e.kind = .view)) ↔
    Known store scope earlier .viewId id ∧ (id ∈ Validation.viewRefs earlier ∨
      (¬ Declared earlier id ∧ class? store earlier id = some .view)) := by
  rw [h.viewRefs, h.declares_iff]
  constructor
  · rintro (hv | ⟨hd, e, he, hk⟩)
    · exact ⟨Or.inl (Or.inr hv), Or.inl hv⟩
    · refine ⟨Or.inr ⟨e, he, Or.inl rfl⟩, Or.inr ⟨hd, ?_⟩⟩
      rw [Declared, not_or] at hd
      rw [class?, if_neg hd.1, if_neg hd.2, he, Option.map_some, hk]
      rfl
  · rintro ⟨-, hv | ⟨hd, hc⟩⟩
    · exact Or.inl hv
    · refine Or.inr ⟨hd, ?_⟩
      rw [Declared, not_or] at hd
      rw [class?, if_neg hd.1, if_neg hd.2] at hc
      obtain ⟨e, he, hk⟩ := Option.map_eq_some_iff.mp hc
      refine ⟨e, he, ?_⟩
      cases hkind : e.kind with
      | view => rfl
      | element type => simp [hkind, EntityKind.entityClass] at hk
      | relationship type => simp [hkind, EntityKind.entityClass] at hk

/-- The phase accepts an action just if it fits the actions before it. -/
theorem accepts_iff : Accepts store scope t action ↔ WellScopedAt store scope earlier action := by
  have hid : Field.id ≠ .viewId := by simp
  have hsource : Field.sourceId ≠ .viewId := by simp
  have htarget : Field.targetId ≠ .viewId := by simp
  have helement : Field.elementId ≠ .viewId := by simp
  cases action with
  | createElement type name ref text =>
    simp [wellScopedAt_iff, Accepts, Action.elementRef?, Action.viewRef?, Action.idFields, KindsFit,
      h.declares_iff]
  | createView name ref =>
    simp [wellScopedAt_iff, Accepts, Action.elementRef?, Action.viewRef?, Action.idFields, KindsFit,
      h.declares_iff]
  | createRelationship type source target name =>
    rw [Accepts, h.resolves_ne_iff hsource, h.resolves_ne_iff htarget, wellScopedAt_iff]
    simp only [Action.elementRef?, Action.viewRef?, Action.idFields, Action.op, KindsFit,
      List.forall_mem_cons, reduceCtorEq, or_false, false_imp_iff, implies_true, true_and,
      ne_eq, not_false_eq_true, forall_const, List.not_mem_nil, and_true]
    constructor
    · rintro ⟨⟨hs, hks, hcs⟩, ht, hkt, hct⟩
      exact ⟨⟨hs, ht⟩, ⟨hks, hkt⟩, hcs, hct⟩
    · rintro ⟨⟨hs, ht⟩, ⟨hks, hkt⟩, hcs, hct⟩
      exact ⟨⟨hs, hks, hcs⟩, ht, hkt, hct⟩
  | deleteElement id =>
    rw [Accepts, h.resolves_ne_iff hid]
    simp [wellScopedAt_iff, Action.elementRef?, Action.viewRef?, Action.idFields, KindsFit,
      Action.op]
  | deleteRelationship id =>
    simp [wellScopedAt_iff, Accepts, Action.elementRef?, Action.viewRef?, Action.idFields, KindsFit,
      Action.op, h.deleted]
  | renameElement id name => exact h.target_iff rfl rfl rfl (by simp [Action.op]) trivial
  | setProperty id key value => exact h.target_iff rfl rfl rfl (by simp [Action.op]) trivial
  | removeProperty id key => exact h.target_iff rfl rfl rfl (by simp [Action.op]) trivial
  | setDocumentation id text => exact h.target_iff rfl rfl rfl (by simp [Action.op]) trivial
  | moveToFolder id path => exact h.target_iff rfl rfl rfl (by simp [Action.op]) trivial
  | addToView view element x y width height =>
    rw [Accepts, h.resolves_eq_iff helement, h.view_iff scope, h.deleted,
      wellScopedAt_iff]
    simp only [Action.elementRef?, Action.viewRef?, Action.idFields, Action.op, KindsFit,
      List.forall_mem_cons, reduceCtorEq, or_false, false_imp_iff, implies_true, true_and,
      ne_eq, not_false_eq_true, forall_const, List.not_mem_nil, and_true]
    constructor
    · rintro ⟨⟨hv, hkv, hcv⟩, he, hke, hce⟩
      exact ⟨⟨hv, he⟩, ⟨hkv, hke⟩, hcv, hce⟩
    · rintro ⟨⟨hv, he⟩, ⟨hkv, hke⟩, hcv, hce⟩
      exact ⟨⟨hv, hkv, hcv⟩, he, hke, hce⟩

end Agrees

end

/-! Whole plans. -/

section

variable {σ : Type} [EntityLookup σ] (oracle : Oracle) (store : σ) (scope : Option Scope)

/-- The phase finds no error from an action on just if each fits those before it. -/
theorem checkActions_errors_iff (index : Nat) {earlier : List Action} {t : Tables}
    (h : Agrees store earlier t) (actions : List Action) :
    (checkActions oracle store scope index t actions).1.errors = [] ↔
      ∀ k, (hk : k < actions.length) →
        WellScopedAt store scope (earlier ++ actions.take k) actions[k] := by
  induction actions generalizing index earlier t with
  | nil => simp [checkActions]
  | cons action actions ih =>
    have hhead : (checkAction oracle store scope index action t).1.errors = [] ↔
        WellScopedAt store scope earlier action := by
      rw [checkAction_errors_iff, h.accepts_iff]
    rw [checkActions, Findings.errors_append, List.append_eq_nil_iff, hhead]
    constructor
    · rintro ⟨haction, htail⟩ k hk
      have hadvance := checkAction_advances oracle store scope index t (h.accepts_iff.mpr haction)
      cases k with
      | zero => simpa using haction
      | succ k =>
        have hnext := (ih (index + 1) (h.advance hadvance)).mp htail k (by simpa using hk)
        simpa using hnext
    · intro hall
      have haction : WellScopedAt store scope earlier action := by
        have hfirst := hall 0 (by simp)
        rw [List.take_zero, List.append_nil] at hfirst
        exact hfirst
      have hadvance := checkAction_advances oracle store scope index t (h.accepts_iff.mpr haction)
      refine ⟨haction, (ih (index + 1) (h.advance hadvance)).mpr ?_⟩
      intro k hk
      have hnext := hall (k + 1) (by simpa using hk)
      simpa using hnext

/-- The semantic phase accepts the well-scoped plans and no others. -/
theorem semanticValid_iff_wellScoped (value : Json)
    (hvalid : (validate oracle store scope value).schemaValid = true) :
    ∃ plan, (validate oracle store scope value).plan = some plan ∧
      ((validate oracle store scope value).semanticValid = true ↔
        WellScoped store scope plan.actions) := by
  cases hplan : (checkSchema oracle value).plan with
  | none =>
    rw [validate_of_no_plan oracle store scope hplan] at hvalid
    cases hvalid
  | some plan =>
    obtain ⟨-, hsame, hsemantic⟩ := validate_of_plan oracle store scope hplan
    refine ⟨plan, hsame, ?_⟩
    rw [hsemantic, checkActions_errors_iff oracle store scope 0 (Agrees.empty store)]
    simp only [List.nil_append]
    rfl

end

/-- A plan that renames what it has created is well scoped; not so one that renames it after its
deletion. -/
theorem semanticValid_iff_wellScoped_sample :
    let oracle : Oracle := ⟨fun _ _ _ => true, fun _ => some .businessActor, fun _ => none⟩
    let good : ChangePlan := ⟨.v1, .ready, "", [], [
      .createElement "Actor" "Clerk" (some "clerk") none,
      .renameElement "clerk" "Agent"]⟩
    let bad : ChangePlan := ⟨.v1, .ready, "", [], [
      .createElement "Actor" "Clerk" (some "clerk") none,
      .deleteElement "clerk",
      .renameElement "clerk" "Agent"]⟩
    (∃ plan, (validate oracle (Model.new "Office") none good.toJson).plan = some plan ∧
      WellScoped (Model.new "Office") none plan.actions) ∧
    ∃ plan, (validate oracle (Model.new "Office") none bad.toJson).plan = some plan ∧
      ¬ WellScoped (Model.new "Office") none plan.actions := by
  intro oracle good bad
  obtain ⟨plan, hplan, hiff⟩ := semanticValid_iff_wellScoped oracle (Model.new "Office") none
    good.toJson (by decide +kernel)
  obtain ⟨plan', hplan', hiff'⟩ := semanticValid_iff_wellScoped oracle (Model.new "Office") none
    bad.toJson (by decide +kernel)
  exact ⟨⟨plan, hplan, hiff.mp (by decide +kernel)⟩, plan', hplan',
    mt hiff'.mpr (by decide +kernel)⟩

end Validation

end ArchChange
