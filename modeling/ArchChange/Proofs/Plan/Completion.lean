import ArchChange.Proofs.Plan.ProducerSchema
import ArchChange.Proofs.Plan.RoundTrip
/-!
Plans written out in full. What a plan leaves out is null, and writing the nulls out, while dropping
those under keys that nothing declares, gives every action the flat shape that producers use.
-/
namespace ArchChange.Plan

/-- The fields, with null under a key that they lack. -/
def addNull (key : String) (fields : List (String × Json)) : List (String × Json) :=
  if (fields.lookup key).isSome then fields else Keyed.insert key .null fields

/-- The fields, with null under each of the keys that they lack. -/
def addNulls (keys : List String) (fields : List (String × Json)) : List (String × Json) :=
  keys.foldr addNull fields

/-- The fields but those that are null under other keys. -/
def dropNulls (keys : List String) (fields : List (String × Json)) : List (String × Json) :=
  fields.filter fun f => keys.contains f.1 || !f.2.isNull

/-- The keys of the fields that some operation uses. -/
def fieldKeys : List String :=
  Field.all.map Field.spelling

/-- An action with every field that some operation uses. -/
def completeAction : Json → Json
  | .obj fields => .obj (addNulls fieldKeys (dropNulls ("op" :: fieldKeys) fields))
  | v => v

def completeActions : Json → Json
  | .arr actions => .arr (actions.map completeAction)
  | v => v

/-- The fields of a plan with every field in each action, and with questions, if only null. -/
def completeFields (fields : List (String × Json)) : List (String × Json) :=
  addNulls [PlanField.questions.spelling] (dropNulls PlanField.spellings
    (fields.map fun f =>
      (f.1, if f.1 = PlanField.actions.spelling then completeActions f.2 else f.2)))

/-- A plan written out in full. -/
def complete : Json → Json
  | .obj fields => .obj (completeFields fields)
  | v => v

variable {keys : List String} {fields : List (String × Json)} {key : String}

theorem mem_fieldKeys (f : Field) : f.spelling ∈ fieldKeys :=
  List.mem_map_of_mem (mem_all_field f)

theorem lookup_addNull (k : String) : (addNull k fields).lookup key =
    if key = k then some ((fields.lookup key).getD .null) else fields.lookup key := by
  unfold addNull
  split
  · next hsome =>
    split
    · next heq =>
      obtain ⟨v, hv⟩ := Option.isSome_iff_exists.mp hsome
      rw [heq, hv, Option.getD_some]
    · rfl
  · next hnone =>
    rw [Keyed.lookup_insert]
    split
    · next heq =>
      rw [heq, Option.not_isSome_iff_eq_none.mp hnone, Option.getD_none]
    · rfl

theorem lookup_addNulls : (addNulls keys fields).lookup key =
    if key ∈ keys then some ((fields.lookup key).getD .null) else fields.lookup key := by
  induction keys with
  | nil => rfl
  | cons k keys ih =>
    rw [addNulls, List.foldr_cons, ← addNulls, lookup_addNull, ih]
    rcases eq_or_ne key k with rfl | hne
    · rw [if_pos rfl, if_pos List.mem_cons_self]
      split <;> rfl
    · simp [hne]

theorem mem_addNulls {f : String × Json} (h : f ∈ addNulls keys fields) :
    f.1 ∈ keys ∨ f ∈ fields := by
  induction keys with
  | nil => exact Or.inr h
  | cons k keys ih =>
    rw [addNulls, List.foldr_cons, ← addNulls, addNull] at h
    split at h
    · exact (ih h).imp_left (List.mem_cons_of_mem k)
    · rcases Keyed.mem_insert h with rfl | h
      · exact Or.inl List.mem_cons_self
      · exact (ih h).imp_left (List.mem_cons_of_mem k)

theorem lookup_dropNulls (h : key ∈ keys) :
    (dropNulls keys fields).lookup key = fields.lookup key := by
  induction fields with
  | nil => rfl
  | cons f fields ih =>
    rw [dropNulls, List.filter_cons, ← dropNulls, List.lookup_cons]
    split
    · rw [List.lookup_cons, ih]
    · next hdropped =>
      have hne : (key == f.1) = false := by
        rw [beq_eq_false_iff_ne]
        rintro rfl
        simp [h] at hdropped
      rw [hne, ih]

theorem mem_dropNulls {f : String × Json} : f ∈ dropNulls keys fields ↔
    f ∈ fields ∧ (f.1 ∈ keys ∨ ¬ f.2.isNull) := by
  simp [dropNulls]

theorem isNull_completeActions (v : Json) : (completeActions v).isNull = v.isNull := by
  cases v <;> rfl

theorem lookup_completeFields (f : PlanField) : (completeFields fields).lookup f.spelling =
    if f = .questions then some ((fields.lookup f.spelling).getD .null)
    else if f = .actions then (fields.lookup f.spelling).map completeActions
    else fields.lookup f.spelling := by
  have hmem : f.spelling ∈ PlanField.spellings := by cases f <;> decide
  rw [completeFields, lookup_addNulls, lookup_dropNulls hmem,
    lookup_mapValues fun key v => if key = PlanField.actions.spelling then completeActions v else v]
  cases f <;> simp [PlanField.spelling]

theorem mem_completeFields {f : String × Json} (h : f ∈ completeFields fields) :
    f.1 ∈ PlanField.spellings ∨ ∃ g ∈ fields, g.1 = f.1 ∧ ¬ g.2.isNull := by
  rcases mem_addNulls h with hkey | hf
  · rw [List.mem_singleton.mp hkey]
    exact Or.inl (by decide)
  · obtain ⟨hmem, hkey⟩ := mem_dropNulls.mp hf
    refine hkey.imp_right fun hnull => ?_
    obtain ⟨g, hg, rfl⟩ := List.mem_map.mp hmem
    refine ⟨g, hg, rfl, ?_⟩
    simp only at hnull
    split at hnull
    · rwa [isNull_completeActions] at hnull
    · exact hnull

end ArchChange.Plan
