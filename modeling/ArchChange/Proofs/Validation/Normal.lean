import ArchChange.Proofs.Plan.Normal
import ArchChange.Proofs.Validation.Grammar
import ArchChange.Proofs.Validation.Labels
/-!
Validation of plans in normal form. The schema phase looks at a field that an operation does not use
only to report it, so normalizing takes these reports away and leaves all others.
-/
namespace ArchChange.Validation

open Plan

/-- The issue is a field that the operation of its action does not use. -/
def Issue.isStray (i : Issue) : Bool :=
  match i.problem with
  | .schema (.unusedBy _) => true
  | _ => false

/-- The issues but those of fields that an operation does not use. -/
def withoutStrays (issues : List Issue) : List Issue :=
  issues.filter fun i => !i.isStray

variable {oracle : Oracle} {index : Nat} {op : OpKind} {fields : List (String × Json)}

theorem withoutStrays_append (issues issues' : List Issue) :
    withoutStrays (issues ++ issues') = withoutStrays issues ++ withoutStrays issues' :=
  List.filter_append ..

theorem withoutStrays_eq_self {issues : List Issue} (h : ∀ i ∈ issues, i.isStray = false) :
    withoutStrays issues = issues :=
  List.filter_eq_self.mpr fun i hi => by rw [h i hi]; rfl

/-! Actions. -/

theorem present?_ownFields {f : Field} (hf : f ∈ op.contract.fields) :
    Json.present? (ownFields op fields) f.spelling = Json.present? fields f.spelling := by
  rw [Json.present?, Json.present?, lookup_ownFields_of_mem hf]

theorem withoutStrays_unusedIssues : withoutStrays (unusedIssues index op fields) = [] := by
  rw [withoutStrays, List.filter_eq_nil_iff, unusedIssues, List.forall_mem_map]
  rintro f -
  simp [actionIssue, Issue.isStray]

theorem withoutStrays_requiredIssues :
    withoutStrays (requiredIssues index op fields) = requiredIssues index op fields := by
  apply withoutStrays_eq_self
  rw [requiredIssues, List.forall_mem_map]
  intro f _
  rfl

theorem valueProblem?_ne_unusedBy {kind : FieldKind} {value : Json} :
    valueProblem? oracle kind value ≠ some (.unusedBy op) := by
  intro h
  cases kind <;> grind [valueProblem?, labelProblem?, lengthProblem?]

theorem withoutStrays_valueIssues :
    withoutStrays (valueIssues oracle index op fields) = valueIssues oracle index op fields := by
  apply withoutStrays_eq_self
  intro i hi
  obtain ⟨f, -, hissue⟩ := List.mem_filterMap.mp hi
  obtain ⟨value, -, hvalue⟩ := Option.bind_eq_some_iff.mp hissue
  obtain ⟨problem, hproblem, rfl⟩ := Option.map_eq_some_iff.mp hvalue
  cases problem with
  | unusedBy op => exact absurd hproblem valueProblem?_ne_unusedBy
  | _ => rfl

theorem withoutStrays_coordinateIssues :
    withoutStrays (coordinateIssues index op fields) = coordinateIssues index op fields := by
  apply withoutStrays_eq_self
  intro i hi
  simp only [coordinateIssues] at hi
  split at hi
  · split at hi <;> simp_all [actionIssue, Issue.isStray]
  · cases hi

theorem unusedIssues_ownFields : unusedIssues index op (ownFields op fields) = [] := by
  rw [unusedIssues_eq_nil_iff, ownFields_eq, List.forall_mem_map]
  intro f _ hnull
  unfold ownValue at hnull
  split at hnull
  · next hown => exact hown.imp_right OpKind.declaresKey_iff.mp
  · exact absurd rfl hnull

theorem requiredIssues_ownFields :
    requiredIssues index op (ownFields op fields) = requiredIssues index op fields := by
  unfold requiredIssues
  congr 1
  refine List.filter_congr fun f hf => ?_
  rw [present?_ownFields (List.mem_append_left _ hf)]

theorem valueIssues_ownFields :
    valueIssues oracle index op (ownFields op fields) = valueIssues oracle index op fields := by
  refine List.filterMap_congr fun f hf => ?_
  rw [present?_ownFields hf]

theorem coordinateIssues_ownFields :
    coordinateIssues index op (ownFields op fields) = coordinateIssues index op fields := by
  by_cases hop : op = .addToView
  · subst hop
    have hx : Field.x ∈ OpKind.addToView.contract.fields := by decide
    have hy : Field.y ∈ OpKind.addToView.contract.fields := by decide
    simp only [coordinateIssues, present?_ownFields hx, present?_ownFields hy]
  · simp only [coordinateIssues, hop, if_false]

/-- Without strays an action of a known operation has the issues that it had, but for those. -/
theorem fieldIssues_ownFields : fieldIssues oracle index op (ownFields op fields) =
    withoutStrays (fieldIssues oracle index op fields) := by
  simp only [fieldIssues, withoutStrays_append, withoutStrays_unusedIssues,
    withoutStrays_requiredIssues, withoutStrays_valueIssues, withoutStrays_coordinateIssues,
    unusedIssues_ownFields, requiredIssues_ownFields, valueIssues_ownFields,
    coordinateIssues_ownFields]

theorem actionIssues_of_opOf? (h : opOf? fields = some op) :
    actionIssues oracle index (.obj fields) = fieldIssues oracle index op fields := by
  obtain ⟨v, hv, h⟩ := Option.bind_eq_some_iff.mp h
  obtain ⟨name, hname, hop⟩ := Option.bind_eq_some_iff.mp h
  rw [eq_str_of_text? hname] at hv
  simp only [actionIssues, hv, hop]

theorem withoutStrays_actionIssues_of_no_op (h : opOf? fields = none) :
    withoutStrays (actionIssues oracle index (.obj fields)) =
      actionIssues oracle index (.obj fields) := by
  apply withoutStrays_eq_self
  intro i hi
  simp only [actionIssues] at hi
  split at hi
  · next name hname =>
    have hop : OpKind.ofName? name = none := by simpa [opOf?, hname, Json.text?] using h
    simp only [hop, List.mem_singleton] at hi
    subst hi
    rfl
  all_goals
    rw [List.mem_singleton] at hi
    subst hi
    rfl

theorem actionIssues_normalizeAction (action : Json) :
    actionIssues oracle index (normalizeAction action) =
      withoutStrays (actionIssues oracle index action) := by
  cases action with
  | obj fields =>
    cases hop : opOf? fields with
    | none => rw [normalizeAction_of_no_op hop, withoutStrays_actionIssues_of_no_op hop]
    | some op =>
      rw [normalizeAction_of_opOf? hop, actionIssues_of_opOf? (opOf?_ownFields.trans hop),
        actionIssues_of_opOf? hop, fieldIssues_ownFields]
  | _ => rfl

theorem actionListIssues_normalize (items : List Json) :
    actionListIssues oracle index (items.map normalizeAction) =
      withoutStrays (actionListIssues oracle index items) := by
  induction items generalizing index with
  | nil => rfl
  | cons item items ih =>
    rw [List.map_cons, actionListIssues, actionListIssues, withoutStrays_append, ih,
      actionIssues_normalizeAction]

/-! Plans. -/

theorem actionsIssues_normalFields : actionsIssues oracle (normalFields fields) =
    withoutStrays (actionsIssues oracle fields) := by
  unfold actionsIssues
  simp only [lookup_actions_normalFields]
  cases fields.lookup PlanField.actions.spelling with
  | none => rfl
  | some v =>
    cases v with
    | arr items =>
      simp only [Option.map_some, normalizeActions, List.length_map, actionListIssues_normalize,
        withoutStrays_append]
      split <;> rfl
    | _ => rfl

theorem isNull_normalValue (key : String) (v : Json) : (normalValue key v).isNull = v.isNull := by
  unfold normalValue
  split
  · cases v <;> rfl
  · rfl

theorem present?_normalFields_isNone (key : String) :
    (Json.present? (normalFields fields) key).isNone = (Json.present? fields key).isNone := by
  rw [normalFields_eq, Json.present?_mapValues (isNull_normalValue key), Option.isNone_map]

theorem unknownFieldIssues_normalFields :
    unknownFieldIssues (normalFields fields) = unknownFieldIssues fields := by
  simp only [unknownFieldIssues, normalFields_eq, List.filter_map, List.map_map,
    Function.comp_def, isNull_normalValue]

/-- What is wrong with the fields of a plan besides its actions. -/
def headIssues (fields : List (String × Json)) : List Issue :=
  unknownFieldIssues fields ++ missingIssues fields ++
    choiceIssues fields PlanField.schemaVersion.spelling SchemaVersion.names ++
    choiceIssues fields PlanField.status.spelling PlanStatus.names ++
    summaryIssues fields ++ questionsIssues fields

theorem planIssues_eq :
    planIssues oracle fields = headIssues fields ++ actionsIssues oracle fields :=
  rfl

theorem headIssues_normalFields : headIssues (normalFields fields) = headIssues fields := by
  simp only [headIssues, unknownFieldIssues_normalFields, missingIssues,
    present?_normalFields_isNone, choiceIssues, summaryIssues, questionsIssues,
    lookup_normalFields_of_ne (f := .schemaVersion), lookup_normalFields_of_ne (f := .status),
    lookup_normalFields_of_ne (f := .summary), lookup_normalFields_of_ne (f := .questions), ne_eq,
    reduceCtorEq, not_false_eq_true]

theorem withoutStrays_choiceIssues (name : String) (allowed : List String) :
    withoutStrays (choiceIssues fields name allowed) = choiceIssues fields name allowed := by
  unfold choiceIssues
  split
  · split <;> rfl
  all_goals rfl

theorem withoutStrays_summaryIssues :
    withoutStrays (summaryIssues fields) = summaryIssues fields := by
  simp only [summaryIssues]
  split
  · split <;> rfl
  all_goals rfl

theorem withoutStrays_questionListIssues (questions : List Json) :
    withoutStrays (questionListIssues index questions) = questionListIssues index questions := by
  induction questions generalizing index with
  | nil => rfl
  | cons question questions ih =>
    rw [questionListIssues, withoutStrays_append, ih]
    congr 1
    unfold questionProblem?
    split
    · rfl
    · split
      · rfl
      · split <;> rfl

theorem withoutStrays_questionsIssues :
    withoutStrays (questionsIssues fields) = questionsIssues fields := by
  simp only [questionsIssues]
  split
  · rw [withoutStrays_append, withoutStrays_questionListIssues]
    split <;> rfl
  all_goals rfl

theorem withoutStrays_headIssues : withoutStrays (headIssues fields) = headIssues fields := by
  have hunknown : withoutStrays (unknownFieldIssues fields) = unknownFieldIssues fields := by
    apply withoutStrays_eq_self
    rw [unknownFieldIssues, List.forall_mem_map]
    exact fun _ _ => rfl
  have hmissing : withoutStrays (missingIssues fields) = missingIssues fields := by
    apply withoutStrays_eq_self
    rw [missingIssues, List.forall_mem_map]
    exact fun _ _ => rfl
  simp only [headIssues, withoutStrays_append, hunknown, hmissing, withoutStrays_choiceIssues,
    withoutStrays_summaryIssues, withoutStrays_questionsIssues]

theorem planIssues_normalFields : planIssues oracle (normalFields fields) =
    withoutStrays (planIssues oracle fields) := by
  rw [planIssues_eq, planIssues_eq, withoutStrays_append, headIssues_normalFields,
    withoutStrays_headIssues, actionsIssues_normalFields]

theorem itemCount_normalFields (key : String) :
    itemCount (normalFields fields) key = itemCount fields key := by
  by_cases hkey : key = PlanField.actions.spelling
  · subst hkey
    simp only [itemCount, lookup_actions_normalFields]
    cases fields.lookup PlanField.actions.spelling with
    | none => rfl
    | some v => cases v <;> simp [normalizeActions]
  · rw [itemCount, itemCount, lookup_normalFields hkey]

theorem planWarnings_normalFields : planWarnings (normalFields fields) = planWarnings fields := by
  rw [planWarnings, planWarnings, lookup_normalFields (by decide)]
  simp only [itemCount_normalFields]

/-- A plan is refused for what is wrong with it and for nothing else, for what has no issues is
decoded. -/
theorem errors_checkSchema :
    (checkSchema oracle (.obj fields)).errors = planIssues oracle fields := by
  cases hissues : planIssues oracle fields with
  | nil =>
    have hplan := planIssues_eq_nil_iff.mp hissues
    obtain ⟨p, hrange, hspelled⟩ := hplan.exists_spelledBy
    rw [checkSchema_of_spelledBy hplan hrange hspelled]
  | cons issue issues => simp only [checkSchema, hissues]

theorem warnings_checkSchema :
    (checkSchema oracle (.obj fields)).warnings = planWarnings fields := by
  unfold checkSchema
  simp only
  split
  · split <;> rfl
  · rfl

/-- Normalizing a value a second time changes nothing, it is decoded as before, and of the errors
that the schema phase finds in it those of strays go while all others and the warnings stay. -/
theorem checkSchema_normalize (oracle : Oracle) (value : Json) :
    normalize (normalize value) = normalize value ∧
    ChangePlan.ofJson? (normalize value) = ChangePlan.ofJson? value ∧
    (checkSchema oracle (normalize value)).errors =
      (checkSchema oracle value).errors.filter (fun i => !i.isStray) ∧
    (checkSchema oracle (normalize value)).warnings = (checkSchema oracle value).warnings := by
  refine ⟨normalize_normalize value, decode_normalize value, ?_⟩
  cases value with
  | obj fields =>
    rw [normalize_obj, errors_checkSchema, errors_checkSchema, warnings_checkSchema,
      warnings_checkSchema]
    exact ⟨planIssues_normalFields, planWarnings_normalFields⟩
  | _ => exact ⟨rfl, rfl⟩

/-- A renaming has a type, which is a stray, and lacks a name; the second error stays. -/
example :
    let value := Json.obj [("schema_version", .str "2.0"), ("status", .str "ready"),
      ("summary", .str "Rename"), ("actions", .arr [.obj [("op", .str "rename_element"),
        ("id", .str "a"), ("name", .str ""), ("type", .str "node")]])]
    (checkSchema .bundled value).errors.map Issue.render =
        ["actions[0].type: field is not used by rename_element",
          "actions[0].name: must not be empty"] ∧
      (checkSchema .bundled (normalize value)).errors.map Issue.render =
        ["actions[0].name: must not be empty"] := by
  decide +kernel

end ArchChange.Validation
