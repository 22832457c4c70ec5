import ArchChange.Proofs.Plan.Decoding
import ArchChange.Proofs.Validation.Tables
/-!
The grammar of plans. It says in one piece what the schema phase asks of a JSON value in many; the
phase accepts what the grammar does, and what it accepts can be decoded.
-/
namespace ArchChange

/-- The kinds of fields that hold a text. -/
def FieldKind.isText : FieldKind → Bool
  | .integer .. => false
  | _ => true

theorem OpKind.isText_of_required {op : OpKind} {f : Field} (hf : f ∈ op.contract.required) :
    f.kind.isText := by
  revert hf
  cases op <;> revert f <;> decide

theorem Json.present?_eq_some_iff {fields : List (String × Json)} {key : String} {v : Json} :
    present? fields key = some v ↔ fields.lookup key = some v ∧ ¬ v.isNull := by
  simp [present?, Option.filter_eq_some_iff]

theorem Json.getD_present? (fields : List (String × Json)) (key : String) :
    (present? fields key).getD .null = (fields.lookup key).getD .null := by
  unfold present?
  cases fields.lookup key with
  | none => rfl
  | some v => cases v <;> rfl

theorem Json.present?_mapValues {fields : List (String × Json)} {g : String → Json → Json}
    {key : String} (hg : ∀ v, (g key v).isNull = v.isNull) :
    present? (fields.map fun p => (p.1, g p.1 p.2)) key = (present? fields key).map (g key) := by
  rw [present?, present?, lookup_mapValues, Option.filter_map]
  congr 1
  exact congrArg (Option.filter · _) (funext fun v => by simp [hg])

namespace Validation

variable (oracle : Oracle)

/-- The values that a field may hold, null apart. -/
def Admits : FieldKind → Json → Prop
  | .text limit allowBlank, .str s => s.length ≤ limit ∧ (allowBlank ∨ ¬ Text.isBlank s)
  | .elementTypeLabel, .str s =>
    s.length ≤ 64 ∧ ¬ Text.isBlank s ∧ (oracle.elementType? s).isSome
  | .relationshipTypeLabel, .str s =>
    s.length ≤ 64 ∧ ¬ Text.isBlank s ∧ (oracle.relationshipType? s).isSome
  | .integer least greatest, .num (.int n) => FitsInt64 n ∧ least ≤ n ∧ n ≤ greatest
  | _, _ => False

/-- The fields of an action of an operation. -/
structure IsAction (op : OpKind) (fields : List (String × Json)) : Prop where
  named : fields.lookup "op" = some (.str op.name)
  own : ∀ f ∈ fields, ¬ f.2.isNull → f.1 = "op" ∨ ∃ g ∈ op.contract.fields, g.spelling = f.1
  required : ∀ f ∈ op.contract.required, (Json.present? fields f.spelling).isSome
  values : ∀ f ∈ op.contract.fields, ∀ v, Json.present? fields f.spelling = some v →
    Admits oracle f.kind v
  coordinates : op = .addToView → ((Json.present? fields Field.x.spelling).isSome ↔
    (Json.present? fields Field.y.spelling).isSome)

/-- The texts that may be a question. -/
def IsQuestion : Json → Prop
  | .str s => ¬ Text.isBlank s ∧ s.length ≤ 500
  | _ => False

/-- The fields of a plan. -/
structure IsPlan (fields : List (String × Json)) : Prop where
  known : ∀ f ∈ fields, ¬ f.2.isNull → f.1 ∈ PlanField.spellings
  schemaVersion : ∃ s ∈ SchemaVersion.names,
    fields.lookup PlanField.schemaVersion.spelling = some (.str s)
  status : ∃ s ∈ PlanStatus.names, fields.lookup PlanField.status.spelling = some (.str s)
  summary : ∃ s, fields.lookup PlanField.summary.spelling = some (.str s) ∧ s.length ≤ 2000
  questions : ∀ v, Json.present? fields PlanField.questions.spelling = some v →
    ∃ items, v = .arr items ∧ items.length ≤ 10 ∧ ∀ item ∈ items, IsQuestion item
  actions : ∃ items, fields.lookup PlanField.actions.spelling = some (.arr items) ∧
    items.length ≤ 100 ∧ ∀ item ∈ items, ∃ op fs, item = .obj fs ∧ IsAction oracle op fs

section

variable {oracle}

theorem lengthProblem?_eq_none_iff {text : String} {limit : Nat} {allowBlank : Bool} :
    lengthProblem? text limit allowBlank = none ↔
      text.length ≤ limit ∧ (allowBlank ∨ ¬ Text.isBlank text) := by
  unfold lengthProblem?
  cases allowBlank <;> cases Text.isBlank text <;> simp

theorem labelProblem?_eq_none_iff {text : String} (known : String → Bool)
    {unknown : String → SchemaProblem} : labelProblem? text known unknown = none ↔
      text.length ≤ 64 ∧ ¬ Text.isBlank text ∧ known text := by
  have hlength : lengthProblem? text Limits.maxTypeLabel false = none ↔
      text.length ≤ 64 ∧ ¬ Text.isBlank text := by
    rw [lengthProblem?_eq_none_iff]
    simp [Limits.maxTypeLabel]
  rw [← and_assoc, ← hlength, labelProblem?]
  cases lengthProblem? text Limits.maxTypeLabel false with
  | some problem => simp
  | none => simp

theorem valueProblem?_eq_none_iff {kind : FieldKind} {value : Json} :
    valueProblem? oracle kind value = none ↔ Admits oracle kind value := by
  cases kind with
  | text limit allowBlank =>
    cases value with
    | str s => exact lengthProblem?_eq_none_iff
    | _ => simp [valueProblem?, Json.text?, Admits]
  | elementTypeLabel =>
    cases value with
    | str s => exact labelProblem?_eq_none_iff fun s => (oracle.elementType? s).isSome
    | _ => simp [valueProblem?, Json.text?, Admits]
  | relationshipTypeLabel =>
    cases value with
    | str s =>
      exact labelProblem?_eq_none_iff fun s => (oracle.relationshipType? s).isSome
    | _ => simp [valueProblem?, Json.text?, Admits]
  | integer least greatest =>
    cases value with
    | num number =>
      cases number with
      | int n =>
        by_cases hn : FitsInt64 n
        · simp [valueProblem?, Json.int64?, Admits, hn, hn.1, hn.2]
        · rw [FitsInt64] at hn
          simp only [valueProblem?, Json.int64?, hn, if_false, Admits, FitsInt64, false_and,
            reduceCtorEq]
      | double d => simp [valueProblem?, Json.int64?, Admits]
    | _ => simp [valueProblem?, Json.int64?, Admits]

variable {index : Nat} {op : OpKind} {fields : List (String × Json)}

theorem unusedIssues_eq_nil_iff : unusedIssues index op fields = [] ↔
    ∀ f ∈ fields, ¬ f.2.isNull → f.1 = "op" ∨ ∃ g ∈ op.contract.fields, g.spelling = f.1 := by
  rw [unusedIssues, List.map_eq_nil_iff, List.filter_eq_nil_iff]
  refine forall₂_congr fun f _ => ?_
  rw [← OpKind.declaresKey_iff]
  by_cases hop : f.1 = "op" <;> cases f.2.isNull <;> simp [hop]

theorem requiredIssues_eq_nil_iff : requiredIssues index op fields = [] ↔
    ∀ f ∈ op.contract.required, (Json.present? fields f.spelling).isSome := by
  rw [requiredIssues, List.map_eq_nil_iff, List.filter_eq_nil_iff]
  simp only [Option.isNone_iff_eq_none, Option.isSome_iff_ne_none, ne_eq]

theorem valueIssues_eq_nil_iff : valueIssues oracle index op fields = [] ↔
    ∀ f ∈ op.contract.fields, ∀ v, Json.present? fields f.spelling = some v →
      Admits oracle f.kind v := by
  rw [valueIssues, List.filterMap_eq_nil_iff]
  refine forall₂_congr fun f _ => ?_
  simp only [Option.bind_eq_none_iff, Option.map_eq_none_iff, valueProblem?_eq_none_iff]

theorem coordinateIssues_eq_nil_iff : coordinateIssues index op fields = [] ↔
    (op = .addToView → ((Json.present? fields Field.x.spelling).isSome ↔
      (Json.present? fields Field.y.spelling).isSome)) := by
  unfold coordinateIssues
  by_cases hop : op = .addToView
  · cases hx : (Json.present? fields Field.x.spelling).isSome <;>
      cases hy : (Json.present? fields Field.y.spelling).isSome <;> simp [hop, hx, hy]
  · simp [hop]

/-- An action without issues is one of the grammar. -/
theorem actionIssues_eq_nil_iff {value : Json} : actionIssues oracle index value = [] ↔
    ∃ op fields, value = .obj fields ∧ IsAction oracle op fields := by
  constructor
  · intro h
    cases value with
    | obj fields =>
      simp only [actionIssues] at h
      split at h
      · next name hname =>
        split at h
        · next op hop =>
          obtain rfl : op.name = name := by simpa using List.find?_some hop
          simp only [fieldIssues, List.append_eq_nil_iff, unusedIssues_eq_nil_iff,
            requiredIssues_eq_nil_iff, valueIssues_eq_nil_iff, coordinateIssues_eq_nil_iff] at h
          obtain ⟨⟨⟨hown, hrequired⟩, hvalues⟩, hcoordinates⟩ := h
          exact ⟨op, fields, rfl, hname, hown, hrequired, hvalues, hcoordinates⟩
        · cases h
      all_goals cases h
    | _ => simp [actionIssues] at h
  · rintro ⟨op, fields, rfl, h⟩
    simp only [actionIssues, h.named, OpKind.ofName?_name, fieldIssues, List.append_eq_nil_iff]
    exact ⟨⟨⟨unusedIssues_eq_nil_iff.mpr h.own, requiredIssues_eq_nil_iff.mpr h.required⟩,
      valueIssues_eq_nil_iff.mpr h.values⟩, coordinateIssues_eq_nil_iff.mpr h.coordinates⟩

theorem actionListIssues_eq_nil_iff {items : List Json} : actionListIssues oracle index items = [] ↔
    ∀ item ∈ items, ∃ op fields, item = .obj fields ∧ IsAction oracle op fields := by
  induction items generalizing index with
  | nil => simp [actionListIssues]
  | cons item items ih =>
    rw [actionListIssues, List.append_eq_nil_iff, actionIssues_eq_nil_iff, ih,
      List.forall_mem_cons]

theorem questionProblem?_eq_none_iff {value : Json} :
    questionProblem? value = none ↔ IsQuestion value := by
  cases value with
  | str s =>
    have hlimit : ¬ Limits.maxQuestion < s.length ↔ s.length ≤ 500 := Nat.not_lt
    simp only [questionProblem?, Json.text?, IsQuestion, ← hlimit]
    cases Text.isBlank s <;> simp
  | _ => simp [questionProblem?, Json.text?, IsQuestion]

theorem questionListIssues_eq_nil_iff {items : List Json} : questionListIssues index items = [] ↔
    ∀ item ∈ items, IsQuestion item := by
  induction items generalizing index with
  | nil => simp [questionListIssues]
  | cons item items ih =>
    rw [questionListIssues, List.append_eq_nil_iff, ih, List.forall_mem_cons,
      Option.toList_eq_nil_iff, Option.map_eq_none_iff, questionProblem?_eq_none_iff]

theorem unknownFieldIssues_eq_nil_iff : unknownFieldIssues fields = [] ↔
    ∀ f ∈ fields, ¬ f.2.isNull → f.1 ∈ PlanField.spellings := by
  rw [unknownFieldIssues, List.map_eq_nil_iff, List.filter_eq_nil_iff]
  refine forall₂_congr fun f _ => ?_
  by_cases hknown : f.1 ∈ PlanField.spellings <;> cases f.2.isNull <;> simp [hknown]

theorem missingIssues_eq_nil_iff : missingIssues fields = [] ↔
    ∀ f ∈ PlanField.required, (Json.present? fields f.spelling).isSome := by
  rw [missingIssues, List.map_eq_nil_iff, List.filter_eq_nil_iff]
  simp only [Option.isNone_iff_eq_none, Option.isSome_iff_ne_none, ne_eq]

/-- A required text from a closed set. -/
theorem choiceIssues_eq_nil_iff {name : String} {allowed : List String}
    (h : (Json.present? fields name).isSome) : choiceIssues fields name allowed = [] ↔
      ∃ s ∈ allowed, fields.lookup name = some (.str s) := by
  obtain ⟨v, hv⟩ := Option.isSome_iff_exists.mp h
  obtain ⟨hlookup, hnull⟩ := Json.present?_eq_some_iff.mp hv
  cases v with
  | str s => simp [choiceIssues, hlookup]
  | null => exact absurd rfl hnull
  | _ => simp [choiceIssues, hlookup]

theorem summaryIssues_eq_nil_iff (h : (Json.present? fields PlanField.summary.spelling).isSome) :
    summaryIssues fields = [] ↔
      ∃ s, fields.lookup PlanField.summary.spelling = some (.str s) ∧ s.length ≤ 2000 := by
  obtain ⟨v, hv⟩ := Option.isSome_iff_exists.mp h
  obtain ⟨hlookup, hnull⟩ := Json.present?_eq_some_iff.mp hv
  cases v with
  | str s =>
    have hlimit : ¬ Limits.maxSummary < s.length ↔ s.length ≤ 2000 := Nat.not_lt
    simp [summaryIssues, hlookup, ← hlimit]
  | null => exact absurd rfl hnull
  | _ => simp [summaryIssues, hlookup]

theorem questionsIssues_eq_nil_iff : questionsIssues fields = [] ↔
    ∀ v, Json.present? fields PlanField.questions.spelling = some v →
      ∃ items, v = .arr items ∧ items.length ≤ 10 ∧ ∀ item ∈ items, IsQuestion item := by
  cases hlookup : fields.lookup PlanField.questions.spelling with
  | none => simp [questionsIssues, Json.present?, hlookup]
  | some v =>
    cases v with
    | arr items =>
      have hlimit : ¬ Limits.maxQuestions < items.length ↔ items.length ≤ 10 := Nat.not_lt
      simp [questionsIssues, Json.present?_eq_some_iff, hlookup, Json.isNull, ← hlimit,
        questionListIssues_eq_nil_iff]
    | null => simp [questionsIssues, Json.present?, hlookup, Json.isNull]
    | _ => simp [questionsIssues, Json.present?_eq_some_iff, hlookup, Json.isNull]

theorem actionsIssues_eq_nil_iff (h : (Json.present? fields PlanField.actions.spelling).isSome) :
    actionsIssues oracle fields = [] ↔
      ∃ items, fields.lookup PlanField.actions.spelling = some (.arr items) ∧
        items.length ≤ 100 ∧ ∀ item ∈ items, ∃ op fs, item = .obj fs ∧ IsAction oracle op fs := by
  obtain ⟨v, hv⟩ := Option.isSome_iff_exists.mp h
  obtain ⟨hlookup, hnull⟩ := Json.present?_eq_some_iff.mp hv
  cases v with
  | arr items =>
    have hlimit : ¬ Limits.maxActions < items.length ↔ items.length ≤ 100 := Nat.not_lt
    simp [actionsIssues, hlookup, ← hlimit, actionListIssues_eq_nil_iff]
  | null => exact absurd rfl hnull
  | _ => simp [actionsIssues, hlookup]

/-- A plan without issues is one of the grammar. -/
theorem planIssues_eq_nil_iff : planIssues oracle fields = [] ↔ IsPlan oracle fields := by
  simp only [planIssues, List.append_eq_nil_iff, unknownFieldIssues_eq_nil_iff,
    missingIssues_eq_nil_iff, questionsIssues_eq_nil_iff]
  constructor
  · rintro ⟨⟨⟨⟨⟨⟨hknown, hmissing⟩, hversion⟩, hstatus⟩, hsummary⟩, hquestions⟩, hactions⟩
    exact ⟨hknown, (choiceIssues_eq_nil_iff (hmissing .schemaVersion (by decide))).mp hversion,
      (choiceIssues_eq_nil_iff (hmissing .status (by decide))).mp hstatus,
      (summaryIssues_eq_nil_iff (hmissing .summary (by decide))).mp hsummary, hquestions,
      (actionsIssues_eq_nil_iff (hmissing .actions (by decide))).mp hactions⟩
  · intro h
    have hmissing : ∀ f ∈ PlanField.required, (Json.present? fields f.spelling).isSome := by
      obtain ⟨_, -, hversion⟩ := h.schemaVersion
      obtain ⟨_, -, hstatus⟩ := h.status
      obtain ⟨_, hsummary, -⟩ := h.summary
      obtain ⟨_, hactions, -⟩ := h.actions
      simp [PlanField.required, Json.present?, hversion, hstatus, hsummary, hactions, Json.isNull]
    exact ⟨⟨⟨⟨⟨⟨h.known, hmissing⟩,
      (choiceIssues_eq_nil_iff (hmissing .schemaVersion (by decide))).mpr h.schemaVersion⟩,
      (choiceIssues_eq_nil_iff (hmissing .status (by decide))).mpr h.status⟩,
      (summaryIssues_eq_nil_iff (hmissing .summary (by decide))).mpr h.summary⟩, h.questions⟩,
      (actionsIssues_eq_nil_iff (hmissing .actions (by decide))).mpr h.actions⟩

theorem Admits.eq_str {kind : FieldKind} {value : Json} (h : Admits oracle kind value)
    (hkind : kind.isText) : ∃ s, value = .str s := by
  cases kind <;> cases value <;> simp_all [Admits, FieldKind.isText]

theorem Admits.eq_int {kind : FieldKind} {value : Json} (h : Admits oracle kind value)
    (hkind : ¬ kind.isText) : ∃ n, value = .int n ∧ FitsInt64 n := by
  cases kind with
  | integer least greatest =>
    cases value with
    | num number =>
      cases number with
      | int n => exact ⟨n, rfl, h.1⟩
      | double d => cases h
    | _ => cases h
  | _ => exact absurd rfl hkind

namespace IsAction

variable (h : IsAction oracle op fields)

include h

theorem eq_str_of_required {f : Field} (hf : f ∈ op.contract.required) :
    ∃ s, (fields.lookup f.spelling).getD .null = .str s := by
  obtain ⟨v, hv⟩ := Option.isSome_iff_exists.mp (h.required f hf)
  obtain ⟨s, rfl⟩ :=
    (h.values f (List.mem_append_left _ hf) v hv).eq_str (OpKind.isText_of_required hf)
  exact ⟨s, by rw [← Json.getD_present?, hv, Option.getD_some]⟩

theorem eq_text_of_optional {f : Field} (hf : f ∈ op.contract.optional) (hkind : f.kind.isText) :
    ∃ o, (fields.lookup f.spelling).getD .null = Action.optionalText o := by
  rw [← Json.getD_present?]
  cases hpresent : Json.present? fields f.spelling with
  | none => exact ⟨none, rfl⟩
  | some v =>
    obtain ⟨s, rfl⟩ := (h.values f (List.mem_append_right _ hf) v hpresent).eq_str hkind
    exact ⟨some s, rfl⟩

theorem eq_int_of_optional {f : Field} (hf : f ∈ op.contract.optional) (hkind : ¬ f.kind.isText) :
    ∃ o, (fields.lookup f.spelling).getD .null = Action.optionalInt o ∧ ∀ n ∈ o, FitsInt64 n := by
  rw [← Json.getD_present?]
  cases hpresent : Json.present? fields f.spelling with
  | none => exact ⟨none, rfl, by simp⟩
  | some v =>
    obtain ⟨n, rfl, hn⟩ := (h.values f (List.mem_append_right _ hf) v hpresent).eq_int hkind
    exact ⟨some n, rfl, by simpa using hn⟩

/-- An action of the grammar is spelled by its fields. -/
theorem exists_spelledBy : ∃ a : Action, a.InRange ∧ a.SpelledBy fields := by
  choose! s hs using fun f => h.eq_str_of_required (f := f)
  choose! t ht using fun f => h.eq_text_of_optional (f := f)
  choose! n hn hfits using fun f => h.eq_int_of_optional (f := f)
  have hspelled : ∀ a : Action, a.op = op →
      op.contract.fields.map (fun f => (f, (fields.lookup f.spelling).getD .null)) = a.slots →
      a.SpelledBy fields := by
    rintro a rfl hslots
    exact ⟨h.named, hslots⟩
  cases op <;>
    simp only [OpKind.contract, Field.kind, Field.idKind, FieldKind.isText, List.mem_cons,
      List.not_mem_nil, or_false, forall_eq_or_imp, forall_eq, forall_const, not_true,
      Bool.false_eq_true, not_false_eq_true, IsEmpty.forall_iff, implies_true, and_true]
      at hs ht hn hfits
  case createElement =>
    exact ⟨.createElement (s .type) (s .name) (t .refId) (t .documentation), trivial,
      hspelled _ rfl (by simp [OpKind.contract, Contract.fields, Action.slots, hs, ht])⟩
  case createRelationship =>
    exact ⟨.createRelationship (s .relationshipType) (s .sourceId) (s .targetId) (t .name), trivial,
      hspelled _ rfl (by simp [OpKind.contract, Contract.fields, Action.slots, hs, ht])⟩
  case createView =>
    exact ⟨.createView (s .name) (t .refId), trivial,
      hspelled _ rfl (by simp [OpKind.contract, Contract.fields, Action.slots, hs, ht])⟩
  case addToView =>
    refine ⟨.addToView (s .viewId) (s .elementId) (n .x) (n .y) (n .width) (n .height), ?_,
      hspelled _ rfl (by simp [OpKind.contract, Contract.fields, Action.slots, hs, hn])⟩
    simpa [Action.InRange] using hfits
  case renameElement =>
    exact ⟨.renameElement (s .id) (s .name), trivial,
      hspelled _ rfl (by simp [OpKind.contract, Contract.fields, Action.slots, hs])⟩
  case deleteElement =>
    exact ⟨.deleteElement (s .id), trivial,
      hspelled _ rfl (by simp [OpKind.contract, Contract.fields, Action.slots, hs])⟩
  case setProperty =>
    exact ⟨.setProperty (s .id) (s .key) (s .value), trivial,
      hspelled _ rfl (by simp [OpKind.contract, Contract.fields, Action.slots, hs])⟩
  case removeProperty =>
    exact ⟨.removeProperty (s .id) (s .key), trivial,
      hspelled _ rfl (by simp [OpKind.contract, Contract.fields, Action.slots, hs])⟩
  case setDocumentation =>
    exact ⟨.setDocumentation (s .id) (s .documentation), trivial,
      hspelled _ rfl (by simp [OpKind.contract, Contract.fields, Action.slots, hs])⟩
  case deleteRelationship =>
    exact ⟨.deleteRelationship (s .id), trivial,
      hspelled _ rfl (by simp [OpKind.contract, Contract.fields, Action.slots, hs])⟩
  case moveToFolder =>
    exact ⟨.moveToFolder (s .id) (s .folderPath), trivial,
      hspelled _ rfl (by simp [OpKind.contract, Contract.fields, Action.slots, hs])⟩

end IsAction

theorem exists_forall₂ {α β : Type} (R : α → β → Prop) {items : List α}
    (h : ∀ item ∈ items, ∃ b, R item b) : ∃ bs, List.Forall₂ R items bs := by
  induction items with
  | nil => exact ⟨[], .nil⟩
  | cons item items ih =>
    obtain ⟨⟨b, hb⟩, hitems⟩ := List.forall_mem_cons.mp h
    obtain ⟨bs, hbs⟩ := ih hitems
    exact ⟨b :: bs, .cons hb hbs⟩

/-- A plan of the grammar is spelled by its fields. -/
theorem IsPlan.exists_spelledBy (h : IsPlan oracle fields) :
    ∃ p : ChangePlan, p.InRange ∧ p.SpelledBy fields := by
  obtain ⟨_, hversionName, hversion⟩ := h.schemaVersion
  obtain ⟨version, -, rfl⟩ := List.mem_map.mp hversionName
  obtain ⟨_, hstatusName, hstatus⟩ := h.status
  obtain ⟨status, -, rfl⟩ := List.mem_map.mp hstatusName
  obtain ⟨summary, hsummary, -⟩ := h.summary
  obtain ⟨items, hactions, -, hitems⟩ := h.actions
  obtain ⟨actions, hspelled⟩ := exists_forall₂
      (fun item (a : Action) => a.InRange ∧ ∃ fs, item = Json.obj fs ∧ a.SpelledBy fs) <| by
    intro item hitem
    obtain ⟨op, fs, rfl, hfs⟩ := hitems item hitem
    obtain ⟨a, hrange, ha⟩ := hfs.exists_spelledBy
    exact ⟨a, hrange, fs, rfl, ha⟩
  have hrange : ∀ a ∈ actions, a.InRange :=
    (List.forall₂_and_left actions items).mp hspelled.flip |>.1
  cases hquestions : Json.present? fields PlanField.questions.spelling with
  | none =>
    exact ⟨⟨version, status, summary, [], actions⟩, hrange, hversion, hstatus, hsummary,
      Or.inr ⟨hquestions, rfl⟩, items, hactions, hspelled.imp fun _ _ h => h.2⟩
  | some v =>
    obtain ⟨asked, rfl, -, hasked⟩ := h.questions v hquestions
    obtain ⟨questions, heq⟩ := exists_forall₂ (fun item s => item = Json.str s) <| by
      intro item hitem
      have hquestion := hasked item hitem
      cases item with
      | str s => exact ⟨s, rfl⟩
      | _ => cases hquestion
    obtain rfl : asked = questions.map .str := by
      rw [← List.forall₂_eq_eq_eq, List.forall₂_map_right_iff]
      exact heq
    exact ⟨⟨version, status, summary, questions, actions⟩, hrange, hversion, hstatus, hsummary,
      Or.inl hquestions, items, hactions, hspelled.imp fun _ _ h => h.2⟩

/-- What the schema phase finds no error in, it decodes. -/
theorem checkSchema_of_spelledBy (h : IsPlan oracle fields) {p : ChangePlan} (hrange : p.InRange)
    (hspelled : p.SpelledBy fields) :
    checkSchema oracle (.obj fields) = ⟨[], planWarnings fields, some p⟩ := by
  simp only [checkSchema, planIssues_eq_nil_iff.mpr h,
    ChangePlan.ofJson?_of_spelledBy hrange hspelled]

theorem checkSchema_of_not_isPlan (h : ¬ IsPlan oracle fields) :
    (checkSchema oracle (.obj fields)).plan = none := by
  cases hissues : planIssues oracle fields with
  | nil => exact absurd (planIssues_eq_nil_iff.mp hissues) h
  | cons issue issues => simp only [checkSchema, hissues]

end

/-- The schema phase accepts what the grammar does. What it accepts it decodes, to the plan that the
value spells; a plan that has no issues never fails to be decoded. -/
theorem schemaValid_iff_isPlan {σ : Type} [EntityLookup σ] (oracle : Oracle) (store : σ)
    (scope : Option Scope) (value : Json) :
    let report := validate oracle store scope value
    (report.schemaValid = true ↔ ∃ fields, value = .obj fields ∧ IsPlan oracle fields) ∧
    (report.schemaValid = true → ∃ fields plan, value = .obj fields ∧ plan.SpelledBy fields ∧
      ChangePlan.ofJson? value = some plan ∧ report.plan = some plan) ∧
    ∀ fields, value = .obj fields → planIssues oracle fields = [] →
      (ChangePlan.ofJson? value).isSome := by
  intro report
  by_cases h : ∃ fields, value = .obj fields ∧ IsPlan oracle fields
  · obtain ⟨fields, rfl, hplan⟩ := h
    obtain ⟨p, hrange, hspelled⟩ := hplan.exists_spelledBy
    have hdecoded := ChangePlan.ofJson?_of_spelledBy hrange hspelled
    obtain ⟨hvalid, hsame, -⟩ := validate_of_plan oracle store scope
      (congrArg SchemaResult.plan (checkSchema_of_spelledBy hplan hrange hspelled))
    refine ⟨iff_of_true hvalid ⟨fields, rfl, hplan⟩, fun _ => ?_, fun _ _ _ => ?_⟩
    · exact ⟨fields, p, rfl, hspelled, hdecoded, hsame⟩
    · rw [hdecoded]
      rfl
  · have hnone : (checkSchema oracle value).plan = none := by
      cases value with
      | obj fields => exact checkSchema_of_not_isPlan fun hplan => h ⟨fields, rfl, hplan⟩
      | _ => rfl
    have hinvalid : ¬ report.schemaValid = true := by
      simp [report, validate_of_no_plan oracle store scope hnone]
    refine ⟨iff_of_false hinvalid h, fun hvalid => absurd hvalid hinvalid, ?_⟩
    rintro fields rfl hissues
    exact absurd ⟨fields, rfl, planIssues_eq_nil_iff.mp hissues⟩ h

/-- A plan of one action, which holds a null under a key that its operation does not use. -/
theorem schemaValid_iff_isPlan_sample :
    let oracle : Oracle := ⟨fun _ _ _ => true, fun _ => some .businessActor, fun _ => none⟩
    let fields : List (String × Json) := [("schema_version", .str "1.0"), ("status", .str "ready"),
      ("summary", .str ""), ("actions", .arr [.obj [("op", .str "create_element"), ("x", .null),
        ("type", .str "Actor"), ("name", .str "Clerk")]])]
    let report := validate oracle (Model.new "Office") none (.obj fields)
    report.schemaValid = true ∧ (∃ fs, Json.obj fields = .obj fs ∧ IsPlan oracle fs) ∧
      (∃ fs plan, Json.obj fields = .obj fs ∧ plan.SpelledBy fs ∧ report.plan = some plan) ∧
      planIssues oracle fields = [] ∧ (ChangePlan.ofJson? (.obj fields)).isSome := by
  intro oracle fields report
  obtain ⟨hiff, hdecodes, hissues⟩ :=
    schemaValid_iff_isPlan oracle (Model.new "Office") none (.obj fields)
  have hvalid : report.schemaValid = true := by decide +kernel
  have hnone : planIssues oracle fields = [] := by decide +kernel
  obtain ⟨fs, plan, hfields, hspelled, -, hplan⟩ := hdecodes hvalid
  exact ⟨hvalid, hiff.mp hvalid, ⟨fs, plan, hfields, hspelled, hplan⟩, hnone,
    hissues fields rfl hnone⟩

end Validation

end ArchChange
