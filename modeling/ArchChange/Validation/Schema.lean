import ArchChange.Compatibility
import ArchChange.Plan.Wire
import ArchChange.Validation.Issue
/-!
The schema phase: the shape of a plan and the fields of its actions, checked on the JSON value
without a model. A plan without errors is decoded.
-/
namespace ArchChange.Validation

variable (oracle : Oracle)

/-- A problem with the plan or one of its fields. -/
def planIssue (field : Option String) (problem : SchemaProblem) : Issue :=
  ⟨none, field, .schema problem⟩

/-- A problem with an action or one of its fields. -/
def actionIssue (index : Nat) (field : Option String) (problem : SchemaProblem) : Issue :=
  ⟨some index, field, .schema problem⟩

/-- What is wrong with the length of a text. -/
def lengthProblem? (text : String) (limit : Nat) (allowBlank : Bool) : Option SchemaProblem :=
  if !allowBlank && Text.isBlank text then some .blank
  else if limit < text.length then some (.tooLong text.length limit)
  else none

/-- What is wrong with a type label, with `known` the labels of types. -/
def labelProblem? (text : String) (known : String → Bool)
    (unknown : String → SchemaProblem) : Option SchemaProblem :=
  match lengthProblem? text Limits.maxTypeLabel false with
  | some problem => some problem
  | none => if known text then none else some (unknown text)

/-- What is wrong with the value of a field. -/
def valueProblem? (kind : FieldKind) (value : Json) : Option SchemaProblem :=
  match kind with
  | .text limit allowBlank =>
    match value.text? with
    | none => some .notAString
    | some text => lengthProblem? text limit allowBlank
  | .elementTypeLabel =>
    match value.text? with
    | none => some .notAString
    | some text =>
      labelProblem? text (fun s => (oracle.elementType? s).isSome) .unknownElementType
  | .relationshipTypeLabel =>
    match value.text? with
    | none => some .notAString
    | some text =>
      labelProblem? text (fun s => (oracle.relationshipType? s).isSome) .unknownRelationshipType
  | .integer least greatest =>
    match value.int64? with
    | none => some .notAnInteger
    | some n =>
      if least ≤ n ∧ n ≤ greatest then none else some (.outside n least greatest)

/-- The fields of an action that its operation does not use. -/
def unusedIssues (index : Nat) (op : OpKind) (fields : List (String × Json)) : List Issue :=
  (fields.filter fun f => f.1 ≠ "op" && !f.2.isNull && !op.declaresKey f.1).map fun f =>
    actionIssue index (some f.1) (.unusedBy op)

/-- The fields that an action lacks. -/
def requiredIssues (index : Nat) (op : OpKind) (fields : List (String × Json)) : List Issue :=
  (op.contract.required.filter fun f => (Json.present? fields f.spelling).isNone).map fun f =>
    actionIssue index (some f.spelling) (.requiredBy op)

/-- The fields of an action with a value that they may not hold. -/
def valueIssues (index : Nat) (op : OpKind) (fields : List (String × Json)) : List Issue :=
  op.contract.fields.filterMap fun f =>
    (Json.present? fields f.spelling).bind fun value =>
      (valueProblem? oracle f.kind value).map (actionIssue index (some f.spelling))

/-- Of the coordinates of a placement none or both must be given. -/
def coordinateIssues (index : Nat) (op : OpKind) (fields : List (String × Json)) :
    List Issue :=
  let has (f : Field) := (Json.present? fields f.spelling).isSome
  if op = .addToView then
    match has .x, has .y with
    | true, false => [actionIssue index (some Field.y.spelling) .coordinateAlone]
    | false, true => [actionIssue index (some Field.x.spelling) .coordinateAlone]
    | _, _ => []
  else []

/-- What is wrong with the fields of an action with a known operation. -/
def fieldIssues (index : Nat) (op : OpKind) (fields : List (String × Json)) : List Issue :=
  unusedIssues index op fields ++ requiredIssues index op fields ++
    valueIssues oracle index op fields ++ coordinateIssues index op fields

/-- What is wrong with an action. -/
def actionIssues (index : Nat) (action : Json) : List Issue :=
  match action with
  | .obj fields =>
    match fields.lookup "op" with
    | some (.str name) =>
      match OpKind.ofName? name with
      | some op => fieldIssues oracle index op fields
      | none => [actionIssue index (some "op") (.unknownOp name)]
    | some .null | none => [actionIssue index (some "op") .missing]
    | some _ => [actionIssue index (some "op") .notAString]
  | _ => [actionIssue index none .actionNotAnObject]

/-- Issues of the actions numbered from `index` on. -/
def actionListIssues (index : Nat) : List Json → List Issue
  | [] => []
  | action :: actions => actionIssues oracle index action ++ actionListIssues (index + 1) actions

def actionsIssues (fields : List (String × Json)) : List Issue :=
  let name := PlanField.actions.spelling
  match fields.lookup name with
  | some (.arr actions) =>
    (if Limits.maxActions < actions.length then
        [planIssue (some name) (.tooManyActions actions.length)]
      else []) ++ actionListIssues oracle 0 actions
  | some .null | none => []
  | some _ => [planIssue (some name) .actionsNotAnArray]

/-- The number of items of a field, zero unless it is an array. -/
def itemCount (fields : List (String × Json)) (name : String) : Nat :=
  match fields.lookup name with
  | some (.arr items) => items.length
  | _ => 0

/-- What is wrong with a question. -/
def questionProblem? (question : Json) : Option SchemaProblem :=
  match question.text? with
  | none => some .notAString
  | some text =>
    if Text.isBlank text then some .blank
    else if Limits.maxQuestion < text.length then some .questionTooLong
    else none

/-- Issues of the questions numbered from `index` on. -/
def questionListIssues (index : Nat) : List Json → List Issue
  | [] => []
  | question :: questions =>
    ((questionProblem? question).map (planIssue (some s!"questions[{index}]"))).toList ++
      questionListIssues (index + 1) questions

def questionsIssues (fields : List (String × Json)) : List Issue :=
  let name := PlanField.questions.spelling
  match fields.lookup name with
  | some (.arr questions) =>
    (if Limits.maxQuestions < questions.length then
        [planIssue (some name) (.tooManyQuestions questions.length)]
      else []) ++ questionListIssues 0 questions
  | some .null | none => []
  | some _ => [planIssue (some name) .questionsNotAnArray]

def summaryIssues (fields : List (String × Json)) : List Issue :=
  let name := PlanField.summary.spelling
  match fields.lookup name with
  | some (.str summary) =>
    if Limits.maxSummary < summary.length then
      [planIssue (some name) (.tooLong summary.length Limits.maxSummary)]
    else []
  | some .null | none => []
  | some _ => [planIssue (some name) .notAString]

/-- What is wrong with a field whose text is from a closed set. -/
def choiceIssues (fields : List (String × Json)) (name : String) (allowed : List String) :
    List Issue :=
  match fields.lookup name with
  | some (.str value) =>
    if allowed.contains value then [] else [planIssue (some name) (.notOneOf value allowed)]
  | some .null | none => []
  | some _ => [planIssue (some name) .notAString]

def unknownFieldIssues (fields : List (String × Json)) : List Issue :=
  (fields.filter fun f => !PlanField.spellings.contains f.1 && !f.2.isNull).map fun f =>
    planIssue (some f.1) .unknownField

def missingIssues (fields : List (String × Json)) : List Issue :=
  (PlanField.required.filter fun f => (Json.present? fields f.spelling).isNone).map fun f =>
    planIssue (some f.spelling) .missing

/-- What is wrong with the fields of a plan. -/
def planIssues (fields : List (String × Json)) : List Issue :=
  unknownFieldIssues fields ++ missingIssues fields ++
    choiceIssues fields PlanField.schemaVersion.spelling SchemaVersion.names ++
    choiceIssues fields PlanField.status.spelling PlanStatus.names ++
    summaryIssues fields ++ questionsIssues fields ++ actionsIssues oracle fields

/-- What is odd about a plan that says it is ready or needs clarification. -/
def planWarnings (fields : List (String × Json)) : List Issue :=
  match (fields.lookup PlanField.status.spelling).bind fun v =>
      v.text?.bind PlanStatus.ofName? with
  | some .ready =>
    if itemCount fields PlanField.actions.spelling = 0 then
      [planIssue (some PlanField.actions.spelling) .nothingToDo]
    else []
  | some .needsClarification =>
    if itemCount fields PlanField.questions.spelling = 0 then
      [planIssue (some PlanField.questions.spelling) .nothingToClarify]
    else []
  | _ => []

/-- What the schema phase finds; the plan is there iff there are no errors. -/
structure SchemaResult where
  errors : List Issue
  warnings : List Issue
  plan : Option ChangePlan

def checkSchema (value : Json) : SchemaResult :=
  match value with
  | .obj fields =>
    match planIssues oracle fields with
    | [] =>
      match ChangePlan.ofJson? value with
      | some plan => ⟨[], planWarnings fields, some plan⟩
      | none => ⟨[planIssue none .undecodable], planWarnings fields, none⟩
    | errors => ⟨errors, planWarnings fields, none⟩
  | _ => ⟨[planIssue none .planNotAnObject], [], none⟩

end ArchChange.Validation
