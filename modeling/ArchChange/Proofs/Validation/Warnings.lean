import ArchChange.Proofs.Validation.Tables
/-!
The warnings of the semantic phase. Each carries the number of the action that it is about, so
what is said of a deletion is read off the findings on that action alone.
-/
namespace ArchChange.Validation

namespace Findings

@[simp] theorem warnings_none : none.warnings = [] := rfl

@[simp] theorem warnings_error (index : Nat) (field : Field) (problem : SemanticProblem) :
    (error index field problem).warnings = [] := rfl

@[simp] theorem warnings_append (f g : Findings) :
    (f ++ g).warnings = f.warnings ++ g.warnings := rfl

/-- All warnings are about the action with the number. -/
def About (index : Nat) (f : Findings) : Prop :=
  ∀ w ∈ f.warnings, w.action = some index

variable {index : Nat}

theorem about_none : About index none := by
  simp [About]

theorem about_error (field : Field) (problem : SemanticProblem) :
    About index (error index field problem) := by
  simp [About]

theorem about_warningIf (condition : Bool) (field : Field) (problem : SemanticProblem) :
    About index (warningIf condition index field problem) := by
  cases condition <;> simp [About, warningIf, warning]

theorem About.append {f g : Findings} (hf : About index f) (hg : About index g) :
    About index (f ++ g) := by
  intro w hw
  exact (List.mem_append.mp hw).elim (hf w) (hg w)

end Findings

/-- What a warning says about how many relationships go with what an action deletes. -/
def cascadeOf? (action : Nat) (w : Issue) : Option Nat :=
  match w.problem with
  | .semantic (.cascades _ count) => if w.action = some action then some count else none
  | _ => none

/-- The number of relationships that go with what an action deletes, as the warnings tell: none
without a warning. -/
def cascadeCount (warnings : List Issue) (action : Nat) : Nat :=
  (warnings.findSome? (cascadeOf? action)).getD 0

section

open Findings (About about_none about_error about_warningIf warningIf warning)

variable {σ : Type} [EntityLookup σ] (oracle : Oracle) (store : σ) (scope : Option Scope)
  (index : Nat) (t : Tables)

theorem about_checkTarget {id : String} {record : Tables → Findings × Tables}
    (hr : About index (record t).1) :
    About index (checkTarget store scope index id t record).1 := by
  unfold checkTarget
  split
  · exact hr
  · exact about_error _ _

theorem about_resolveEndpoint (field : Field) (id : String) :
    About index (resolveEndpoint store scope index field id t).1 := by
  unfold resolveEndpoint
  split
  · exact about_none
  · exact about_none
  · exact about_error _ _
  · exact about_error _ _

theorem about_checkPermitted (source target : Option ElementType)
    (type : Option RelationshipType) :
    About index (checkPermitted oracle index source target type) := by
  unfold checkPermitted
  split
  · exact about_warningIf _ _ _
  · exact about_none

theorem about_checkDeleteElement (id : String) :
    About index (checkDeleteElement store scope index id t).1 := by
  unfold checkDeleteElement
  split
  · exact about_error _ _
  · exact about_error _ _
  · exact about_warningIf _ _ _

theorem about_checkDeleteRelationship (id : String) :
    About index (checkDeleteRelationship store scope index id t).1 := by
  unfold checkDeleteRelationship
  split
  · exact about_error _ _
  · split
    · exact about_error _ _
    · split
      · exact about_none
      · exact about_error _ _
    · exact about_error _ _

theorem about_errorOf? (field : Field) (problem : Option SemanticProblem) :
    About index (errorOf? index field problem) := by
  cases problem with
  | none => exact about_none
  | some problem => exact about_error _ _

theorem about_declareRef (ref : String) (declare : Tables → Tables) :
    About index (declareRef store index ref t declare).1 := by
  unfold declareRef
  split
  · exact about_error _ _
  · exact about_warningIf _ _ _

theorem about_checkAction (action : Action) :
    About index (checkAction oracle store scope index action t).1 := by
  cases action with
  | createElement type name ref text =>
    cases ref with
    | none => exact about_none
    | some ref => exact about_declareRef store index t ref _
  | createView name ref =>
    cases ref with
    | none => exact about_none
    | some ref => exact about_declareRef store index t ref _
  | createRelationship type source target name =>
    have hends := (about_resolveEndpoint store scope index t .sourceId source).append
      (about_resolveEndpoint store scope index t .targetId target)
    exact hends.append (about_checkPermitted oracle index _ _ _)
  | deleteElement id => exact about_checkDeleteElement store scope index t id
  | deleteRelationship id => exact about_checkDeleteRelationship store scope index t id
  | renameElement id name => exact about_checkTarget store scope index t (about_warningIf _ _ _)
  | setProperty id key value => exact about_checkTarget store scope index t (about_warningIf _ _ _)
  | setDocumentation id text => exact about_checkTarget store scope index t (about_warningIf _ _ _)
  | removeProperty id key => exact about_checkTarget store scope index t about_none
  | moveToFolder id path => exact about_checkTarget store scope index t about_none
  | addToView view element x y width height =>
    exact (about_errorOf? index _ _).append (about_errorOf? index _ _)

/-- The warnings on actions carry the numbers of these. -/
theorem action_of_mem_checkActions {actions : List Action} {w : Issue}
    (h : w ∈ (checkActions oracle store scope index t actions).1.warnings) :
    ∃ i, w.action = some i ∧ index ≤ i ∧ i < index + actions.length := by
  induction actions generalizing index t with
  | nil => cases h
  | cons action actions ih =>
    rw [List.length_cons]
    rcases List.mem_append.mp h with h | h
    · exact ⟨index, about_checkAction oracle store scope index t action w h, by omega, by omega⟩
    · obtain ⟨i, hi, hle, hlt⟩ := ih _ _ h
      exact ⟨i, hi, by omega, by omega⟩

theorem findSome?_cascadeOf?_checkActions {actions : List Action} {k : Nat}
    (h : k < index ∨ index + actions.length ≤ k) :
    (checkActions oracle store scope index t actions).1.warnings.findSome? (cascadeOf? k) =
      none := by
  rw [List.findSome?_eq_none_iff]
  intro w hw
  obtain ⟨i, hi, hle, hlt⟩ := action_of_mem_checkActions oracle store scope index t hw
  have hne : ¬ some i = some k := by
    rw [Option.some.injEq]
    omega
  unfold cascadeOf?
  split
  · rw [hi, if_neg hne]
  · rfl

/-- A warning counts what goes with the target of a deletion and is not deleted yet. -/
theorem cascadeCount_checkDeleteElement {id : String}
    (h : Resolves store scope t (· ≠ .relationship) id) (hd : ¬ t.declares id) :
    cascadeCount (checkDeleteElement store scope index id t).1.warnings index =
      ((EntityLookup.cascade store id).filter fun r => !t.isDeleted r).length := by
  obtain ⟨r, hr, hc⟩ := (resolve_iff (· ≠ .relationship)).mpr h
  have hfindings : (checkDeleteElement store scope index id t).1 =
      .warningIf (!((EntityLookup.cascade store id).filter fun r => !t.isDeleted r).isEmpty) index
        .id (.cascades id ((EntityLookup.cascade store id).filter fun r =>
          !t.isDeleted r).length) := by
    rw [checkDeleteElement, hr]
    cases r with
    | element type => simp [hd]
    | relationship type => exact absurd rfl hc
    | view => simp [hd]
  rw [hfindings]
  cases (EntityLookup.cascade store id).filter fun r => !t.isDeleted r with
  | nil => rfl
  | cons r rs => simp [cascadeCount, warningIf, warning, cascadeOf?]

end

/-- The warnings of the schema phase are about no action. -/
theorem action_of_mem_checkSchema (oracle : Oracle) (value : Json) {w : Issue}
    (h : w ∈ (checkSchema oracle value).warnings) : w.action = none := by
  have hplan : ∀ fields, ∀ w ∈ planWarnings fields, w.action = none := by
    intro fields w hw
    unfold planWarnings at hw
    split at hw
    · split at hw
      · rw [List.mem_singleton.mp hw]
        rfl
      · cases hw
    · split at hw
      · rw [List.mem_singleton.mp hw]
        rfl
      · cases hw
    · cases hw
  unfold checkSchema at h
  split at h
  · split at h
    · split at h
      · exact hplan _ w h
      · exact hplan _ w h
    · exact hplan _ w h
  · cases h

/-- The schema phase says nothing about what is deleted. -/
theorem findSome?_cascadeOf?_checkSchema (oracle : Oracle) (value : Json) (k : Nat) :
    (checkSchema oracle value).warnings.findSome? (cascadeOf? k) = none := by
  rw [List.findSome?_eq_none_iff]
  intro w hw
  have haction := action_of_mem_checkSchema oracle value hw
  unfold cascadeOf?
  split
  · rw [haction, if_neg (by simp)]
  · rfl

end ArchChange.Validation
