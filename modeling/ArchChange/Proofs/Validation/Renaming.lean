import ArchChange.Proofs.Plan.Renaming
import ArchChange.Proofs.Validation.Grammar
import ArchChange.Proofs.Validation.Warnings
import ArchChange.Proofs.Model.Cascade
import Mathlib.Data.Prod.Basic
/-!
Validation under other names. Where a renaming keeps ids apart, leaves those of the live model and
gives names that may be ids, a renamed plan passes the phases as the plan does, with issues of the
same places.
-/
namespace ArchChange

namespace Validation

open Plan

/-! The schema phase. -/

section

variable {oracle : Oracle} {f : String → String} {fields : List (String × Json)}

/-- The renaming gives names that an id field may hold. -/
def GivesIds (f : String → String) : Prop :=
  ∀ s, f s = s ∨ (¬ Text.isBlank (f s) ∧ (f s).length ≤ 128)

theorem isNull_renameField (key : String) (v : Json) : (renameField f key v).isNull = v.isNull := by
  unfold renameField
  split
  · cases v <;> rfl
  · rfl

theorem isNull_renamePlanField (key : String) (v : Json) :
    (renamePlanField f key v).isNull = v.isNull := by
  unfold renamePlanField
  split
  · cases v <;> rfl
  · rfl

theorem Admits.rename (hf : GivesIds f) {field : Field} {v : Json}
    (h : Admits oracle field.kind v) :
    Admits oracle field.kind (renameField f field.spelling v) := by
  rw [renameField_spelling]
  cases hholds : field.holdsId with
  | false => exact h
  | true =>
    rw [Field.kind_of_holdsId hholds] at h ⊢
    cases v with
    | str s =>
      rcases hf s with hsame | ⟨hblank, hlength⟩
      · rw [if_pos rfl, renameText, hsame]
        exact h
      · exact ⟨hlength, Or.inr hblank⟩
    | _ => cases h

theorem IsAction.rename (hf : GivesIds f) {op : OpKind} (h : IsAction oracle op fields) :
    IsAction oracle op (fields.map fun p => (p.1, renameField f p.1 p.2)) := by
  have hpresent : ∀ key, Json.present? (fields.map fun p => (p.1, renameField f p.1 p.2)) key =
      (Json.present? fields key).map (renameField f key) :=
    fun key => Json.present?_mapValues (isNull_renameField key)
  constructor
  · rw [lookup_mapValues, h.named]
    rfl
  · simp only [List.forall_mem_map, isNull_renameField]
    exact h.own
  · simpa only [hpresent, Option.isSome_map] using h.required
  · intro field hfield v hv
    rw [hpresent] at hv
    obtain ⟨w, hw, rfl⟩ := Option.map_eq_some_iff.mp hv
    exact (h.values field hfield w hw).rename hf
  · simpa only [hpresent, Option.isSome_map] using h.coordinates

theorem IsPlan.rename (hf : GivesIds f) (h : IsPlan oracle fields) :
    IsPlan oracle (fields.map fun p => (p.1, renamePlanField f p.1 p.2)) := by
  constructor
  · simp only [List.forall_mem_map, isNull_renamePlanField]
    exact h.known
  · rw [lookup_renamePlanField (by decide)]
    exact h.schemaVersion
  · rw [lookup_renamePlanField (by decide)]
    exact h.status
  · rw [lookup_renamePlanField (by decide)]
    exact h.summary
  · rw [Json.present?, lookup_renamePlanField (by decide)]
    exact h.questions
  · obtain ⟨items, hitems, hlength, hactions⟩ := h.actions
    refine ⟨items.map (renameAction f), ?_, by rwa [List.length_map], ?_⟩
    · rw [lookup_mapValues, hitems]
      rfl
    · rw [List.forall_mem_map]
      intro item hitem
      obtain ⟨op, fs, rfl, hfs⟩ := hactions item hitem
      exact ⟨op, _, rfl, hfs.rename hf⟩

theorem itemCount_rename (key : String) :
    itemCount (fields.map fun p => (p.1, renamePlanField f p.1 p.2)) key =
      itemCount fields key := by
  unfold itemCount
  rw [lookup_mapValues]
  cases fields.lookup key with
  | none => rfl
  | some v =>
    by_cases hkey : key = PlanField.actions.spelling
    · cases v <;> simp [renamePlanField, hkey, renameActions]
    · simp [renamePlanField, hkey]

theorem planWarnings_rename :
    planWarnings (fields.map fun p => (p.1, renamePlanField f p.1 p.2)) = planWarnings fields := by
  unfold planWarnings
  rw [lookup_renamePlanField (by decide)]
  simp only [itemCount_rename]

/-- The schema phase finds in a renamed plan what it finds in the plan. -/
theorem checkSchema_renameIds (hf : GivesIds f) {value : Json} {p : ChangePlan}
    (h : (checkSchema oracle value).plan = some p) :
    checkSchema oracle (renameIds f value) =
      ⟨[], (checkSchema oracle value).warnings, some (p.rename f)⟩ := by
  cases value with
  | obj fields =>
    have hplan : IsPlan oracle fields := by
      by_contra hnot
      rw [checkSchema_of_not_isPlan hnot] at h
      cases h
    obtain ⟨q, hrange, hspelled⟩ := hplan.exists_spelledBy
    have hchecked := checkSchema_of_spelledBy hplan hrange hspelled
    rw [hchecked] at h ⊢
    obtain rfl : q = p := Option.some.inj h
    have hrange' : (q.rename f).InRange := by
      rw [ChangePlan.InRange, ChangePlan.rename, List.forall_mem_map]
      exact fun a ha => Action.inRange_rename.mpr (hrange a ha)
    have hspelled' := spelledBy_renameIds (f := f) hspelled
    rw [renameIds, checkSchema_of_spelledBy (hplan.rename hf) hrange' hspelled',
      planWarnings_rename]
  | _ => cases h

end

/-! The semantic phase. -/

/-- The renaming keeps ids apart and leaves those of the live model. -/
structure Keeps (m : Model) (f : String → String) : Prop where
  injective : Function.Injective f
  live : ∀ id ∈ m.entityIds, f id = id

theorem Keeps.of_entity? {m : Model} {f : String → String} {id : String} {e : Entity}
    (h : Keeps m f) (he : EntityLookup.entity? m id = some e) : f id = id :=
  h.live id (Model.entity?_isSome_iff.mp (Option.isSome_of_eq_some he))

/-- The entries of a table under other ids. -/
def renameKeys {α : Type} (f : String → String) (entries : List (String × α)) :
    List (String × α) :=
  entries.map fun p => (f p.1, p.2)

theorem lookup_renameKeys {α : Type} {f : String → String} (hf : Function.Injective f)
    (entries : List (String × α)) (id : String) :
    (renameKeys f entries).lookup (f id) = entries.lookup id := by
  induction entries with
  | nil => rfl
  | cons p entries ih =>
    have hkey : (f id == f p.1) = (id == p.1) := by
      rw [Bool.eq_iff_iff, beq_iff_eq, beq_iff_eq, hf.eq_iff]
    rw [renameKeys, List.map_cons, List.lookup_cons, List.lookup_cons, hkey]
    cases id == p.1 with
    | true => rfl
    | false => exact ih

theorem contains_map {α : Type} [BEq α] [LawfulBEq α] {f : α → α} (hf : Function.Injective f)
    (items : List α) (item : α) : (items.map f).contains (f item) = items.contains item := by
  rw [Bool.eq_iff_iff, List.contains_iff_mem, List.contains_iff_mem]
  exact List.mem_map_of_injective hf

theorem contains_renameKeys {f : String → String} (hf : Function.Injective f)
    (entries : List (String × String)) (id value : String) :
    (renameKeys f entries).contains (f id, value) = entries.contains (id, value) :=
  contains_map (hf.prodMap Function.injective_id) entries (id, value)

def Tables.rename (f : String → String) (t : Tables) : Tables where
  elementRefs := renameKeys f t.elementRefs
  viewRefs := t.viewRefs.map f
  deleted := renameKeys f t.deleted
  renamed := t.renamed.map f
  documented := t.documented.map f
  propertiesSet := renameKeys f t.propertiesSet

/-- Where an issue is. -/
def Issue.place (i : Issue) : Option Nat × Option String :=
  (i.action, i.field)

/-- The findings are of the same places. -/
structure SamePlaces (f g : Findings) : Prop where
  errors : f.errors.map Issue.place = g.errors.map Issue.place
  warnings : f.warnings.map Issue.place = g.warnings.map Issue.place

theorem SamePlaces.refl (f : Findings) : SamePlaces f f := ⟨rfl, rfl⟩

theorem SamePlaces.append {f g f' g' : Findings} (h : SamePlaces f f') (h' : SamePlaces g g') :
    SamePlaces (f ++ g) (f' ++ g') where
  errors := by
    rw [Findings.errors_append, Findings.errors_append, List.map_append, List.map_append, h.errors,
      h'.errors]
  warnings := by
    rw [Findings.warnings_append, Findings.warnings_append, List.map_append, List.map_append,
      h.warnings, h'.warnings]

theorem samePlaces_error (index : Nat) (field : Field) (problem problem' : SemanticProblem) :
    SamePlaces (.error index field problem) (.error index field problem') := ⟨rfl, rfl⟩

theorem samePlaces_warningIf {condition condition' : Bool} (h : condition = condition')
    (index : Nat) (field : Field) (problem problem' : SemanticProblem) :
    SamePlaces (.warningIf condition index field problem)
      (.warningIf condition' index field problem') := by
  subst h
  cases condition <;> exact ⟨rfl, rfl⟩

theorem samePlaces_errorOf? {problem problem' : Option SemanticProblem}
    (h : problem.isSome = problem'.isSome) (index : Nat) (field : Field) :
    SamePlaces (errorOf? index field problem) (errorOf? index field problem') := by
  cases problem with
  | none =>
    obtain rfl : problem' = none := Option.not_isSome_iff_eq_none.mp (by simp [← h])
    exact .refl _
  | some p =>
    obtain ⟨p', rfl⟩ := Option.isSome_iff_exists.mp h.symm
    exact samePlaces_error ..

/-- The relationships that the tables take to go with what is deleted. -/
def Tables.cascaded (m : Model) (t : Tables) (id : String) : List String :=
  if t.declares id then [] else (EntityLookup.cascade m id).filter fun r => !t.isDeleted r

theorem checkDeleteElement_of_ok {m : Model} {scope : Option Scope} {t : Tables} {id : String}
    {r : Resolved} (hr : resolve m scope t id = .ok r) (hc : r.entityClass ≠ .relationship)
    (index : Nat) : checkDeleteElement m scope index id t =
      (.warningIf (!(t.cascaded m id).isEmpty) index .id (.cascades id (t.cascaded m id).length),
        t.delete index (t.cascaded m id ++ [id])) := by
  rw [checkDeleteElement, hr]
  cases r with
  | relationship type => exact absurd rfl hc
  | element type => rfl
  | view => rfl

/-- What is found of a renamed action tells of the same places, and leaves renamed tables. -/
structure Mirrors (f : String → String) (p' p : Findings × Tables) : Prop where
  findings : SamePlaces p'.1 p.1
  tables : p'.2 = p.2.rename f

section

variable {oracle : Oracle} {m : Model} {scope : Option Scope} {f : String → String} {t : Tables}
  {id : String} {index : Nat} (h : Keeps m f)

include h

theorem entity?_rename : m.entity? (f id) = m.entity? id := by
  by_cases hid : id ∈ m.entityIds
  · rw [h.live id hid]
  · have hnew : f id ∉ m.entityIds := fun hmem => hid (h.injective (h.live _ hmem) ▸ hmem)
    rw [Model.entity?_eq_none_iff.mpr hid, Model.entity?_eq_none_iff.mpr hnew]

theorem isDeleted_rename : (t.rename f).isDeleted (f id) = t.isDeleted id := by
  rw [Tables.isDeleted, Tables.rename, lookup_renameKeys h.injective]
  rfl

theorem declares_rename : (t.rename f).declares (f id) = t.declares id := by
  rw [Tables.declares, Tables.rename, lookup_renameKeys h.injective, contains_map h.injective]
  rfl

variable (scope t id) in
/-- An id resolves to the same under another name, or to nothing just as it did. -/
theorem resolve_rename : (∃ r, resolve m scope (t.rename f) (f id) = .ok r ∧
      resolve m scope t id = .ok r) ∨
    ∃ p p', resolve m scope (t.rename f) (f id) = .error p ∧ resolve m scope t id = .error p' := by
  have hentity : EntityLookup.entity? m (f id) = EntityLookup.entity? m id := entity?_rename h
  simp only [resolve, Tables.deletedProblem?, Tables.rename, lookup_renameKeys h.injective,
    contains_map h.injective, hentity]
  cases t.deleted.lookup id with
  | some index => exact Or.inr ⟨_, _, rfl, rfl⟩
  | none =>
    cases t.elementRefs.lookup id with
    | some type => exact Or.inl ⟨_, rfl, rfl⟩
    | none =>
      cases t.viewRefs.contains id with
      | true => exact Or.inl ⟨_, rfl, rfl⟩
      | false =>
        cases he : EntityLookup.entity? m id with
        | none => exact Or.inr ⟨_, _, rfl, rfl⟩
        | some e =>
          have hlive : f id = id := h.of_entity? he
          obtain ⟨eid, name, kind⟩ := e
          rw [hlive]
          cases kind with
          | view => exact Or.inl ⟨_, rfl, rfl⟩
          | element type =>
            cases inScope scope id with
            | true => exact Or.inl ⟨_, rfl, rfl⟩
            | false => exact Or.inr ⟨_, _, rfl, rfl⟩
          | relationship type =>
            cases inScope scope id with
            | true => exact Or.inl ⟨_, rfl, rfl⟩
            | false => exact Or.inr ⟨_, _, rfl, rfl⟩

theorem mirrors_checkTarget {record record' : Tables → Findings × Tables}
    (hrecord : Mirrors f (record' (t.rename f)) (record t)) :
    Mirrors f (checkTarget m scope index (f id) (t.rename f) record')
      (checkTarget m scope index id t record) := by
  unfold checkTarget
  rcases resolve_rename scope t id h with
    ⟨r, hr', hr⟩ | ⟨p, p', hp', hp⟩
  · rw [hr, hr']
    exact hrecord
  · rw [hp, hp']
    exact ⟨samePlaces_error .., rfl⟩

theorem mirrors_declareRef {ref : String} {declare declare' : Tables → Tables}
    (hdeclare : declare' (t.rename f) = (declare t).rename f) :
    Mirrors f (declareRef m index (f ref) (t.rename f) declare')
      (declareRef m index ref t declare) := by
  have hentity : EntityLookup.entity? m (f ref) = EntityLookup.entity? m ref := entity?_rename h
  unfold declareRef
  rw [declares_rename h, hentity]
  cases t.declares ref with
  | true => exact ⟨samePlaces_error .., rfl⟩
  | false => exact ⟨samePlaces_warningIf rfl .., hdeclare⟩

variable (scope t id index) in
theorem samePlaces_resolveEndpoint (field : Field) :
    SamePlaces (resolveEndpoint m scope index field (f id) (t.rename f)).1
        (resolveEndpoint m scope index field id t).1 ∧
      (resolveEndpoint m scope index field (f id) (t.rename f)).2 =
        (resolveEndpoint m scope index field id t).2 := by
  unfold resolveEndpoint
  rcases resolve_rename scope t id h with
    ⟨r, hr', hr⟩ | ⟨p, p', hp', hp⟩
  · rw [hr, hr']
    cases r with
    | view => exact ⟨samePlaces_error .., rfl⟩
    | element type => exact ⟨SamePlaces.refl _, rfl⟩
    | relationship type => exact ⟨SamePlaces.refl _, rfl⟩
  · rw [hp, hp']
    exact ⟨samePlaces_error .., rfl⟩

theorem isSome_viewProblem?_rename :
    (viewProblem? m (t.rename f) (f id)).isSome = (viewProblem? m t id).isSome := by
  have hentity : EntityLookup.entity? m (f id) = EntityLookup.entity? m id := entity?_rename h
  simp only [viewProblem?, Tables.deletedProblem?, Tables.rename, lookup_renameKeys h.injective,
    contains_map h.injective, hentity]
  cases t.deleted.lookup id with
  | some index => rfl
  | none =>
    cases t.viewRefs.contains id with
    | true => rfl
    | false =>
      cases (t.elementRefs.lookup id).isSome with
      | true => rfl
      | false =>
        cases EntityLookup.entity? m id with
        | none => rfl
        | some e => by_cases hk : e.kind = .view <;> simp [hk]

theorem isSome_placedProblem?_rename :
    (placedProblem? m scope (t.rename f) (f id)).isSome =
      (placedProblem? m scope t id).isSome := by
  unfold placedProblem?
  rcases resolve_rename scope t id h with
    ⟨r, hr', hr⟩ | ⟨p, p', hp', hp⟩
  · rw [hr, hr']
    cases r <;> rfl
  · rw [hp, hp']
    rfl

omit h in
theorem rename_delete (ids : List String) :
    (t.rename f).delete index (ids.map f) = (t.delete index ids).rename f := by
  simp [Tables.delete, Tables.rename, renameKeys, List.map_reverse, Function.comp_def]

/-- Nothing in a cascade is renamed. -/
theorem live_of_mem_cascade {r : String} (hr : r ∈ m.cascade id) : f r = r :=
  h.live r (List.mem_append_left _ (List.mem_append_right _
    (Model.mem_relationshipIds_of_mem_cascade hr)))

theorem map_cascaded : (t.cascaded m id).map f = t.cascaded m id := by
  refine (List.map_congr_left fun r hr => ?_).trans (List.map_id _)
  unfold Tables.cascaded at hr
  split at hr
  · cases hr
  · exact live_of_mem_cascade h (List.mem_of_mem_filter hr)

theorem cascaded_rename {r : Resolved} (hr : resolve m scope t id = .ok r) :
    (t.rename f).cascaded m (f id) = t.cascaded m id := by
  unfold Tables.cascaded
  rw [declares_rename h]
  cases hdeclares : t.declares id with
  | true => rfl
  | false =>
    have hlive : f id = id := by
      obtain ⟨-, hnames⟩ := names_of_resolve hr
      generalize r.entityClass = c at hnames
      cases hnames with
      | elementRef hl => simp [Tables.declares, hl] at hdeclares
      | viewRef hl hv => simp [Tables.declares, hv] at hdeclares
      | live e _ he _ => exact h.of_entity? he
    rw [hlive]
    refine List.filter_congr fun x hx => ?_
    have hdeleted : (t.rename f).isDeleted (f x) = t.isDeleted x := isDeleted_rename h
    rw [live_of_mem_cascade h hx] at hdeleted
    rw [hdeleted]

theorem mirrors_checkDeleteElement :
    Mirrors f (checkDeleteElement m scope index (f id) (t.rename f))
      (checkDeleteElement m scope index id t) := by
  rcases resolve_rename scope t id h with
    ⟨r, hr', hr⟩ | ⟨p, p', hp', hp⟩
  · have hcascaded := cascaded_rename h hr
    have hdelete : (t.rename f).delete index (t.cascaded m id ++ [f id]) =
        (t.delete index (t.cascaded m id ++ [id])).rename f := by
      rw [← rename_delete, List.map_append, map_cascaded h]
      rfl
    by_cases hc : r.entityClass = .relationship
    · cases r with
      | relationship type =>
        simp only [checkDeleteElement, hr, hr']
        exact ⟨samePlaces_error .., rfl⟩
      | _ => cases hc
    · rw [checkDeleteElement_of_ok hr hc, checkDeleteElement_of_ok hr' hc, hcascaded]
      exact ⟨samePlaces_warningIf rfl .., hdelete⟩
  · simp only [checkDeleteElement, hp, hp']
    exact ⟨samePlaces_error .., rfl⟩

theorem mirrors_checkDeleteRelationship :
    Mirrors f (checkDeleteRelationship m scope index (f id) (t.rename f))
      (checkDeleteRelationship m scope index id t) := by
  have hentity : EntityLookup.entity? m (f id) = EntityLookup.entity? m id := entity?_rename h
  have hdeleted : (t.rename f).deleted.lookup (f id) = t.deleted.lookup id :=
    lookup_renameKeys h.injective _ _
  simp only [checkDeleteRelationship, Tables.deletedProblem?, hdeleted, hentity]
  cases t.deleted.lookup id with
  | some action => exact ⟨samePlaces_error .., rfl⟩
  | none =>
    cases he : EntityLookup.entity? m id with
    | none => exact ⟨samePlaces_error .., rfl⟩
    | some e =>
      have hlive : f id = id := h.of_entity? he
      obtain ⟨eid, name, kind⟩ := e
      cases kind with
      | relationship type =>
        cases hin : inScope scope id with
        | true =>
          simp only [hlive, hin, Option.map_none, Option.map_some, if_true]
          exact ⟨SamePlaces.refl _, by rw [← rename_delete, List.map_singleton, hlive]⟩
        | false =>
          simp only [hlive, hin, Option.map_none, Option.map_some]
          exact ⟨samePlaces_error .., rfl⟩
      | element type => exact ⟨samePlaces_error .., rfl⟩
      | view => exact ⟨samePlaces_error .., rfl⟩

variable (oracle scope t index) in
/-- The phase finds in a renamed action what it finds in the action. -/
theorem mirrors_checkAction (action : Action) :
    Mirrors f (checkAction oracle m scope index (action.rename f) (t.rename f))
      (checkAction oracle m scope index action t) := by
  cases action with
  | createElement type name ref text =>
    cases ref with
    | none => exact ⟨SamePlaces.refl _, rfl⟩
    | some ref =>
      simp only [Action.rename, Option.map_some, checkAction]
      exact mirrors_declareRef h rfl
  | createView name ref =>
    cases ref with
    | none => exact ⟨SamePlaces.refl _, rfl⟩
    | some ref =>
      simp only [Action.rename, Option.map_some, checkAction]
      exact mirrors_declareRef h rfl
  | createRelationship label source target name =>
    obtain ⟨hsource, hs⟩ := samePlaces_resolveEndpoint scope t source index h .sourceId
    obtain ⟨htarget, ht⟩ := samePlaces_resolveEndpoint scope t target index h .targetId
    simp only [Action.rename, checkAction, hs, ht]
    exact ⟨(hsource.append htarget).append (SamePlaces.refl _), rfl⟩
  | deleteElement id => exact mirrors_checkDeleteElement h
  | deleteRelationship id => exact mirrors_checkDeleteRelationship h
  | renameElement id name =>
    simp only [Action.rename, checkAction]
    refine mirrors_checkTarget h ⟨samePlaces_warningIf ?_ .., rfl⟩
    exact contains_map h.injective _ _
  | setProperty id key value =>
    simp only [Action.rename, checkAction]
    refine mirrors_checkTarget h ⟨samePlaces_warningIf ?_ .., rfl⟩
    exact contains_renameKeys h.injective _ _ _
  | setDocumentation id text =>
    simp only [Action.rename, checkAction]
    refine mirrors_checkTarget h ⟨samePlaces_warningIf ?_ .., rfl⟩
    exact contains_map h.injective _ _
  | removeProperty id key =>
    simp only [Action.rename, checkAction]
    exact mirrors_checkTarget h ⟨SamePlaces.refl _, rfl⟩
  | moveToFolder id path =>
    simp only [Action.rename, checkAction]
    exact mirrors_checkTarget h ⟨SamePlaces.refl _, rfl⟩
  | addToView view element x y width height =>
    exact ⟨(samePlaces_errorOf? (isSome_viewProblem?_rename h) ..).append
      (samePlaces_errorOf? (isSome_placedProblem?_rename h) ..), rfl⟩

variable (oracle scope t index) in
theorem mirrors_checkActions (actions : List Action) :
    Mirrors f (checkActions oracle m scope index (t.rename f) (actions.map (Action.rename f)))
      (checkActions oracle m scope index t actions) := by
  induction actions generalizing index t with
  | nil => exact ⟨SamePlaces.refl _, rfl⟩
  | cons action actions ih =>
    have haction := mirrors_checkAction oracle scope t index h action
    rw [List.map_cons]
    simp only [checkActions, haction.tables]
    have hactions := ih (checkAction oracle m scope index action t).2 (index + 1)
    exact ⟨haction.findings.append hactions.findings, hactions.tables⟩

variable (scope) in
/-- Validation finds in a renamed plan what it finds in the plan. Of the renaming `g` only its
agreeing with `f` on the ids of the plan is needed. -/
theorem validate_renameIds {g : String → String} (hg : GivesIds g) {value : Json}
    {plan : ChangePlan} (hschema : (checkSchema oracle value).plan = some plan)
    (hsame : plan.rename g = plan.rename f) :
    (validate oracle m scope (renameIds g value)).isValid =
      (validate oracle m scope value).isValid ∧
    (validate oracle m scope (renameIds g value)).plan = some (plan.rename g) ∧
    (validate oracle m scope (renameIds g value)).warnings.map Issue.place =
      (validate oracle m scope value).warnings.map Issue.place := by
  have hfound := (mirrors_checkActions oracle scope .empty 0 h plan.actions).findings
  change SamePlaces (checkActions oracle m scope 0 .empty (plan.rename f).actions).1 _ at hfound
  have hempty : (checkActions oracle m scope 0 .empty (plan.rename f).actions).1.errors.isEmpty =
      (checkActions oracle m scope 0 .empty plan.actions).1.errors.isEmpty := by
    rw [← List.isEmpty_map (f := Issue.place), ← List.isEmpty_map (f := Issue.place),
      hfound.errors]
  simp only [validate, hschema, checkSchema_renameIds hg hschema, hsame, Report.isValid, hempty,
    List.map_append, hfound.warnings, and_self]

end

end Validation

end ArchChange
