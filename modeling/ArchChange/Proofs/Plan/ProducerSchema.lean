import ArchChange.Plan.ProducerSchema
import ArchChange.Proofs.Json.Schema
/-!
The plans that keep to the schema for producers. Every action carries every field of every
operation, null where it has no value, and the schema says nothing of which operation uses what.
-/
namespace ArchChange.Plan

open Json

variable {v : Json} {names : List String} {fields : List (String × Json)}

/-- The values of a field that the schema allows, null apart. -/
def Fits : FieldKind → Json → Prop
  | .text limit allowBlank, .str s => s.length ≤ limit ∧ (allowBlank ∨ s ≠ "")
  | .elementTypeLabel, .str s => s.length ≤ Limits.maxTypeLabel ∧ s ≠ ""
  | .relationshipTypeLabel, .str s => s.length ≤ Limits.maxTypeLabel ∧ s ≠ ""
  | .integer least greatest, .num n =>
    n.isIntegral ∧ (least : Rat) ≤ n.value ∧ n.value ≤ (greatest : Rat)
  | _, _ => False

/-- The fields of an action that carries every field. -/
structure IsFlatAction (op : OpKind) (fields : List (String × Json)) : Prop where
  named : fields.lookup "op" = some (.str op.name)
  known : ∀ f ∈ fields, f.1 = "op" ∨ ∃ g : Field, g.spelling = f.1
  values : ∀ f : Field, ∃ v, fields.lookup f.spelling = some v ∧ (v = .null ∨ Fits f.kind v)

/-- The fields of a plan with actions that carry every field. -/
structure IsFlatPlan (fields : List (String × Json)) : Prop where
  known : ∀ f ∈ fields, f.1 ∈ PlanField.spellings
  schemaVersion : ∃ s ∈ SchemaVersion.names,
    fields.lookup PlanField.schemaVersion.spelling = some (.str s)
  status : ∃ s ∈ PlanStatus.names, fields.lookup PlanField.status.spelling = some (.str s)
  summary : ∃ s, fields.lookup PlanField.summary.spelling = some (.str s) ∧
    s.length ≤ Limits.maxSummary
  questions : fields.lookup PlanField.questions.spelling = some .null ∨
    ∃ items, fields.lookup PlanField.questions.spelling = some (.arr items) ∧
      items.length ≤ Limits.maxQuestions ∧
      ∀ item ∈ items, ∃ s, item = .str s ∧ s ≠ "" ∧ s.length ≤ Limits.maxQuestion
  actions : ∃ items, fields.lookup PlanField.actions.spelling = some (.arr items) ∧
    items.length ≤ Limits.maxActions ∧
    ∀ item ∈ items, ∃ op fs, item = .obj fs ∧ IsFlatAction op fs

theorem hasType_iff_null : v.hasType "null" ↔ v = .null := by
  cases v <;> simp [hasType, Json.kind, Kind.name]

theorem hasType_iff_string : v.hasType "string" ↔ ∃ s, v = .str s := by
  cases v <;> simp [hasType, Json.kind, Kind.name]

theorem hasType_iff_array : v.hasType "array" ↔ ∃ items, v = .arr items := by
  cases v <;> simp [hasType, Json.kind, Kind.name]

theorem hasType_iff_object : v.hasType "object" ↔ ∃ fields, v = .obj fields := by
  cases v <;> simp [hasType, Json.kind, Kind.name]

theorem hasType_iff_integer : v.hasType "integer" ↔ ∃ n, v = .num n ∧ n.isIntegral := by
  cases v <;> simp [hasType, Json.kind, Kind.name]

theorem one_le_length_iff {s : String} : 1 ≤ s.length ↔ s ≠ "" := by
  rw [Nat.one_le_iff_ne_zero, ne_eq, String.length_eq_zero_iff]

/-- A field may hold what fits it, or null. -/
theorem conforms_fieldSchema (kind : FieldKind) :
    conforms (fieldSchema kind) v ↔ v = .null ∨ Fits kind v := by
  cases kind with
  | text limit allowBlank =>
    rw [fieldSchema, conforms_object (by cases allowBlank <;> simp)]
    cases allowBlank <;> cases v <;>
      simp [typeNames, hasType_iff_null, hasType_iff_string, one_le_length_iff, Fits, and_comm]
  | integer least greatest =>
    rw [fieldSchema, conforms_object (by simp)]
    cases v <;> simp [typeNames, hasType_iff_null, hasType_iff_integer, Fits]
  | _ =>
    rw [fieldSchema, conforms_object (by simp)]
    cases v <;>
      simp [typeNames, hasType_iff_null, hasType_iff_string, one_le_length_iff, Fits, and_comm]

theorem conforms_choiceSchema : conforms (choiceSchema names) v ↔ ∃ s ∈ names, v = .str s := by
  rw [choiceSchema, conforms_object (by simp)]
  cases v <;> simp [hasType_iff_string]

/-- A record has all of its fields and no others. -/
theorem conforms_recordSchema {schemas : List (String × Json)}
    (h : (schemas.map Prod.fst).Nodup) : conforms (recordSchema schemas) v ↔
      ∃ fields, v = .obj fields ∧ (∀ f ∈ fields, f.1 ∈ schemas.map Prod.fst) ∧
        ∀ s ∈ schemas, ∃ w, fields.lookup s.1 = some w ∧ conforms s.2 w := by
  have hnames (name : String) : name ∈ propertyNames [
      ("type", .str "object"), ("additionalProperties", .bool false),
      ("required", .strings (schemas.map Prod.fst)), ("properties", .object schemas)] ↔
        name ∈ schemas.map Prod.fst := by
    have hperm := ((Keyed.perm_ofList h).map Prod.fst).mem_iff (a := name)
    simpa [propertyNames, object] using hperm
  rw [recordSchema, conforms_object (by simp)]
  simp only [List.forall_mem_cons, conformsToAll_type, conformsToAll_additionalProperties,
    conformsToAll_required, conformsToAll_properties h, hnames, hasType_iff_object,
    List.forall_mem_map]
  constructor
  · rintro ⟨⟨fields, rfl⟩, hknown, hrequired, hproperties, -⟩
    refine ⟨fields, rfl, hknown fields rfl, fun s hs => ?_⟩
    obtain ⟨w, hw⟩ := Option.isSome_iff_exists.mp (hrequired fields rfl s hs)
    exact ⟨w, hw, hproperties fields rfl s hs w hw⟩
  · rintro ⟨fields, rfl, hknown, hfields⟩
    refine ⟨⟨fields, rfl⟩, ?_, ?_, ?_, by simp⟩
    · rintro _ ⟨rfl⟩
      exact hknown
    · rintro _ ⟨rfl⟩ s hs
      obtain ⟨w, hw, -⟩ := hfields s hs
      exact Option.isSome_of_eq_some hw
    · rintro _ ⟨rfl⟩ s hs w hw
      obtain ⟨w', hw', hconforms⟩ := hfields s hs
      obtain rfl : w' = w := Option.some.inj (hw'.symm.trans hw)
      exact hconforms

theorem mem_all_field (f : Field) : f ∈ Field.all := by
  cases f <;> decide

theorem conforms_actionSchema : conforms actionSchema v ↔
    ∃ op fields, v = .obj fields ∧ IsFlatAction op fields := by
  rw [actionSchema, conforms_recordSchema (by decide)]
  simp only [List.forall_mem_cons, List.forall_mem_map, conforms_choiceSchema, conforms_fieldSchema]
  constructor
  · rintro ⟨fields, rfl, hknown, ⟨_, hop, name, hname, rfl⟩, hvalues⟩
    obtain ⟨op, -, rfl⟩ := List.mem_map.mp hname
    refine ⟨op, fields, rfl, hop, fun f hf => ?_, fun f => hvalues f (mem_all_field f)⟩
    simpa [mem_all_field] using hknown f hf
  · rintro ⟨op, fields, rfl, hflat⟩
    refine ⟨fields, rfl, fun f hf => ?_, ⟨_, hflat.named, op.name, ?_, rfl⟩, ?_⟩
    · simpa [mem_all_field] using hflat.known f hf
    · exact List.mem_map_of_mem (by cases op <;> decide)
    · exact fun f _ => hflat.values f

theorem conforms_summary : conforms (planFieldSchema .summary) v ↔
    ∃ s, v = .str s ∧ s.length ≤ Limits.maxSummary := by
  rw [planFieldSchema, conforms_object (by simp)]
  cases v <;> simp [hasType_iff_string]

theorem conforms_question : conforms (.object [("type", .str "string"), ("minLength", .nat 1),
      ("maxLength", .nat Limits.maxQuestion)]) v ↔
    ∃ s, v = .str s ∧ s ≠ "" ∧ s.length ≤ Limits.maxQuestion := by
  rw [conforms_object (by simp)]
  cases v <;> simp [hasType_iff_string, one_le_length_iff]

theorem conforms_questions : conforms (planFieldSchema .questions) v ↔ v = .null ∨
    ∃ items, v = .arr items ∧ items.length ≤ Limits.maxQuestions ∧
      ∀ item ∈ items, ∃ s, item = .str s ∧ s ≠ "" ∧ s.length ≤ Limits.maxQuestion := by
  rw [planFieldSchema, conforms_object (by simp)]
  cases v <;> simp [typeNames, hasType_iff_null, hasType_iff_array, conforms_question]

theorem conforms_actions : conforms (planFieldSchema .actions) v ↔
    ∃ items, v = .arr items ∧ items.length ≤ Limits.maxActions ∧
      ∀ item ∈ items, ∃ op fs, item = .obj fs ∧ IsFlatAction op fs := by
  rw [planFieldSchema, conforms_object (by simp)]
  cases v <;> simp [hasType_iff_array, conforms_actionSchema]

/-- What the schema for producers asks of a plan. -/
theorem conforms_producerSchema : conforms producerSchema v ↔
    ∃ fields, v = .obj fields ∧ IsFlatPlan fields := by
  rw [producerSchema, conforms_recordSchema (by decide)]
  simp only [PlanField.all, List.map_cons, List.map_nil, List.forall_mem_cons]
  refine exists_congr fun fields => and_congr_right fun _ => ?_
  constructor
  · rintro ⟨hknown, ⟨_, hversion, hv⟩, ⟨_, hstatus, hs⟩, ⟨_, hsummary, hsum⟩,
      ⟨_, hquestions, hq⟩, ⟨_, hactions, ha⟩, -⟩
    obtain ⟨version, hmem, rfl⟩ := conforms_choiceSchema.mp hv
    obtain ⟨status, hmem', rfl⟩ := conforms_choiceSchema.mp hs
    obtain ⟨summary, rfl, hlength⟩ := conforms_summary.mp hsum
    obtain ⟨items, rfl, hitems⟩ := conforms_actions.mp ha
    refine ⟨hknown, ⟨version, hmem, hversion⟩, ⟨status, hmem', hstatus⟩,
      ⟨summary, hsummary, hlength⟩, ?_, ⟨items, hactions, hitems⟩⟩
    obtain rfl | ⟨asked, rfl, hasked⟩ := conforms_questions.mp hq
    · exact Or.inl hquestions
    · exact Or.inr ⟨asked, hquestions, hasked⟩
  · intro h
    obtain ⟨version, hmem, hversion⟩ := h.schemaVersion
    obtain ⟨status, hmem', hstatus⟩ := h.status
    obtain ⟨summary, hsummary, hlength⟩ := h.summary
    obtain ⟨items, hactions, hitems⟩ := h.actions
    refine ⟨h.known, ⟨_, hversion, conforms_choiceSchema.mpr ⟨version, hmem, rfl⟩⟩,
      ⟨_, hstatus, conforms_choiceSchema.mpr ⟨status, hmem', rfl⟩⟩,
      ⟨_, hsummary, conforms_summary.mpr ⟨summary, rfl, hlength⟩⟩, ?_,
      ⟨_, hactions, conforms_actions.mpr ⟨items, rfl, hitems⟩⟩, by simp⟩
    rcases h.questions with hnull | ⟨asked, harr, hasked⟩
    · exact ⟨_, hnull, conforms_questions.mpr (Or.inl rfl)⟩
    · exact ⟨_, harr, conforms_questions.mpr (Or.inr ⟨asked, rfl, hasked⟩)⟩

end ArchChange.Plan
