import ArchChange.Proofs.Plan.Completion
import ArchChange.Proofs.Validation.Normal
/-!
The schema for producers and the schema phase. What the phase accepts keeps to the schema once it is
written out in full; what keeps to the schema, and is normalized, can only be refused for what a
schema cannot express or this one does not.
-/
namespace ArchChange.Validation

open Plan

variable {oracle : Oracle} {index : Nat} {op : OpKind} {fields : List (String × Json)}

/-! From the phase to the schema. -/

theorem ne_empty_of_not_isBlank {s : String} (h : ¬ Text.isBlank s) : s ≠ "" := by
  rintro rfl
  exact h rfl

theorem Admits.fits {kind : FieldKind} {v : Json} (h : Admits oracle kind v) : Fits kind v := by
  cases kind with
  | text limit allowBlank =>
    cases v with
    | str s => exact ⟨h.1, h.2.imp_right ne_empty_of_not_isBlank⟩
    | _ => cases h
  | integer least greatest =>
    cases v with
    | num number =>
      cases number with
      | int n =>
        exact ⟨by simp [Number.isIntegral, Number.value_int, Rat.isInt],
          Rat.intCast_le_intCast.mpr h.2.1, Rat.intCast_le_intCast.mpr h.2.2⟩
      | double d => cases h
    | _ => cases h
  | _ =>
    cases v with
    | str s => exact ⟨h.1, ne_empty_of_not_isBlank h.2.1⟩
    | _ => cases h

theorem spelling_injective : Function.Injective Field.spelling := by
  intro f g h
  have hf := f.ofSpelling?_spelling
  rw [h, g.ofSpelling?_spelling] at hf
  exact (Option.some.inj hf).symm

theorem op_not_mem_fieldKeys : "op" ∉ fieldKeys := by
  decide

theorem IsAction.mem_fields (h : IsAction oracle op fields) {f : Field} {v : Json}
    (hv : Json.present? fields f.spelling = some v) : f ∈ op.contract.fields := by
  obtain ⟨hlookup, hnull⟩ := Json.present?_eq_some_iff.mp hv
  rcases h.own _ (mem_of_lookup hlookup) hnull with hop | ⟨g, hg, heq⟩
  · exact absurd hop f.spelling_ne_op
  · exact spelling_injective heq ▸ hg

theorem IsAction.isFlatAction (h : IsAction oracle op fields) :
    IsFlatAction op (addNulls fieldKeys (dropNulls ("op" :: fieldKeys) fields)) where
  named := by
    rw [lookup_addNulls, if_neg op_not_mem_fieldKeys, lookup_dropNulls List.mem_cons_self]
    exact h.named
  known := by
    intro f hf
    rcases mem_addNulls hf with hkey | hf
    · obtain ⟨g, -, hg⟩ := List.mem_map.mp hkey
      exact Or.inr ⟨g, hg⟩
    · obtain ⟨hmem, hkey | hnull⟩ := mem_dropNulls.mp hf
      · refine (List.mem_cons.mp hkey).imp_right fun hkey => ?_
        obtain ⟨g, -, hg⟩ := List.mem_map.mp hkey
        exact ⟨g, hg⟩
      · exact (h.own f hmem hnull).imp_right fun ⟨g, _, hg⟩ => ⟨g, hg⟩
  values := by
    intro f
    have hkey := mem_fieldKeys f
    refine ⟨_, by rw [lookup_addNulls, if_pos hkey], ?_⟩
    rw [lookup_dropNulls (List.mem_cons_of_mem _ hkey), ← Json.getD_present?]
    cases hv : Json.present? fields f.spelling with
    | none => exact Or.inl rfl
    | some v => exact Or.inr (h.values f (h.mem_fields hv) v hv).fits

theorem isFlatAction_of_completeAction {item : Json}
    (h : ∃ op fs, item = .obj fs ∧ IsAction oracle op fs) :
    ∃ op fs, completeAction item = .obj fs ∧ IsFlatAction op fs := by
  obtain ⟨op, fs, rfl, haction⟩ := h
  exact ⟨op, _, rfl, haction.isFlatAction⟩

/-- What the schema phase accepts keeps to the schema once it is written out in full. -/
theorem IsPlan.isFlatPlan (h : IsPlan oracle fields) : IsFlatPlan (completeFields fields) where
  known := by
    intro f hf
    rcases mem_completeFields hf with hkey | ⟨g, hg, hsame, hnull⟩
    · exact hkey
    · exact hsame ▸ h.known g hg hnull
  schemaVersion := by
    rw [lookup_completeFields]
    exact h.schemaVersion
  status := by
    rw [lookup_completeFields]
    exact h.status
  summary := by
    rw [lookup_completeFields]
    exact h.summary
  questions := by
    rw [lookup_completeFields, if_pos rfl, ← Json.getD_present?]
    cases hpresent : Json.present? fields PlanField.questions.spelling with
    | none => exact Or.inl rfl
    | some v =>
      obtain ⟨items, rfl, hcount, hitems⟩ := h.questions v hpresent
      refine Or.inr ⟨items, rfl, hcount, fun item hitem => ?_⟩
      have hquestion := hitems item hitem
      cases item with
      | str s => exact ⟨s, rfl, ne_empty_of_not_isBlank hquestion.1, hquestion.2⟩
      | _ => cases hquestion
  actions := by
    obtain ⟨items, hlookup, hcount, hitems⟩ := h.actions
    refine ⟨items.map completeAction, ?_, ?_, ?_⟩
    · rw [lookup_completeFields, hlookup]
      rfl
    · rw [List.length_map]
      exact hcount
    · exact List.forall_mem_map.mpr fun item hitem =>
        isFlatAction_of_completeAction (hitems item hitem)

/-! From the schema to the phase. -/

/-- What can be wrong with a value that fits its field: it is blank, it is a label of no type, or it
is an integer that is written as a double. -/
inductive Misfit (oracle : Oracle) : FieldKind → Json → SchemaProblem → Prop
  | blankText {limit : Nat} {s : String} (h : Text.isBlank s) :
    Misfit oracle (.text limit false) (.str s) .blank
  | blankElementType {s : String} (h : Text.isBlank s) :
    Misfit oracle .elementTypeLabel (.str s) .blank
  | blankRelationshipType {s : String} (h : Text.isBlank s) :
    Misfit oracle .relationshipTypeLabel (.str s) .blank
  | unknownElementType {s : String} (hs : ¬ Text.isBlank s) (h : oracle.elementType? s = none) :
    Misfit oracle .elementTypeLabel (.str s) (.unknownElementType s)
  | unknownRelationshipType {s : String} (hs : ¬ Text.isBlank s)
    (h : oracle.relationshipType? s = none) :
    Misfit oracle .relationshipTypeLabel (.str s) (.unknownRelationshipType s)
  | integralDouble {least greatest : Int} {d : Double} (h : (Number.double d).isIntegral) :
    Misfit oracle (.integer least greatest) (.num (.double d)) .notAnInteger

variable {s : String} {problem : SchemaProblem}

theorem lengthProblem?_eq_some_iff {limit : Nat} (h : s.length ≤ limit) {allowBlank : Bool} :
    lengthProblem? s limit allowBlank = some problem ↔
      allowBlank = false ∧ Text.isBlank s ∧ SchemaProblem.blank = problem := by
  rw [lengthProblem?, if_neg (Nat.not_lt.mpr h)]
  cases allowBlank <;> simp

theorem labelProblem?_eq_some_iff (h : s.length ≤ Limits.maxTypeLabel) {known : String → Bool}
    {unknown : String → SchemaProblem} : labelProblem? s known unknown = some problem ↔
      Text.isBlank s ∧ SchemaProblem.blank = problem ∨
        ¬ Text.isBlank s ∧ known s = false ∧ unknown s = problem := by
  cases hblank : Text.isBlank s <;> cases hknown : known s <;>
    simp [labelProblem?, lengthProblem?, hblank, hknown, Nat.not_lt.mpr h]

/-- What is between the bounds of a field fits 64 bits. -/
theorem fitsInt64_of_kind {f : Field} {least greatest n : Int}
    (hkind : f.kind = .integer least greatest) (hleast : least ≤ n) (hgreatest : n ≤ greatest) :
    FitsInt64 n := by
  have hbounds : 0 ≤ least ∧ greatest ≤ 20000 := by
    cases f <;> cases hkind <;> decide
  unfold FitsInt64
  omega

theorem textProblem?_iff_of_fits {limit : Nat} {allowBlank : Bool} {v : Json}
    (h : Fits (.text limit allowBlank) v) :
    valueProblem? oracle (.text limit allowBlank) v = some problem ↔
      Misfit oracle (.text limit allowBlank) v problem := by
  cases v with
  | str s =>
    change lengthProblem? s limit allowBlank = some problem ↔ _
    rw [lengthProblem?_eq_some_iff h.1]
    constructor
    · rintro ⟨rfl, hblank, rfl⟩
      exact .blankText hblank
    · rintro ⟨hblank⟩
      exact ⟨rfl, hblank, rfl⟩
  | _ => cases h

theorem elementTypeProblem?_iff_of_fits {v : Json} (h : Fits .elementTypeLabel v) :
    valueProblem? oracle .elementTypeLabel v = some problem ↔
      Misfit oracle .elementTypeLabel v problem := by
  cases v with
  | str s =>
    change labelProblem? s (fun s => (oracle.elementType? s).isSome) .unknownElementType =
      some problem ↔ _
    rw [labelProblem?_eq_some_iff h.1]
    constructor
    · rintro (⟨hblank, rfl⟩ | ⟨hnot, hunknown, rfl⟩)
      · exact .blankElementType hblank
      · exact .unknownElementType hnot (by simpa using hunknown)
    · rintro (_ | _)
      all_goals simp [*]
  | _ => cases h

theorem relationshipTypeProblem?_iff_of_fits {v : Json} (h : Fits .relationshipTypeLabel v) :
    valueProblem? oracle .relationshipTypeLabel v = some problem ↔
      Misfit oracle .relationshipTypeLabel v problem := by
  cases v with
  | str s =>
    change labelProblem? s (fun s => (oracle.relationshipType? s).isSome)
      .unknownRelationshipType = some problem ↔ _
    rw [labelProblem?_eq_some_iff h.1]
    constructor
    · rintro (⟨hblank, rfl⟩ | ⟨hnot, hunknown, rfl⟩)
      · exact .blankRelationshipType hblank
      · exact .unknownRelationshipType hnot (by simpa using hunknown)
    · rintro (_ | _)
      all_goals simp [*]
  | _ => cases h

/-- An integer within bounds that fit 64 bits is admitted, unless it is written as a double. -/
theorem integerProblem?_iff_of_fits {least greatest : Int} {v : Json}
    (hbounds : ∀ n : Int, least ≤ n → n ≤ greatest → FitsInt64 n)
    (h : Fits (.integer least greatest) v) :
    valueProblem? oracle (.integer least greatest) v = some problem ↔
      Misfit oracle (.integer least greatest) v problem := by
  cases v with
  | num number =>
    cases number with
    | int n =>
      obtain ⟨-, hleast, hgreatest⟩ := h
      rw [Number.value_int, Rat.intCast_le_intCast] at hleast hgreatest
      have hadmits : Admits oracle (.integer least greatest) (.num (.int n)) :=
        ⟨hbounds n hleast hgreatest, hleast, hgreatest⟩
      rw [valueProblem?_eq_none_iff.mpr hadmits]
      constructor <;> rintro ⟨⟩
    | double d =>
      constructor
      · intro heq
        exact Option.some.inj heq ▸ .integralDouble h.1
      · rintro ⟨⟩
        rfl
  | _ => cases h

/-- What the phase finds wrong with a value that the schema lets pass. -/
theorem valueProblem?_iff_of_fits {f : Field} {v : Json} (h : Fits f.kind v) :
    valueProblem? oracle f.kind v = some problem ↔ Misfit oracle f.kind v problem := by
  generalize hkind : f.kind = kind at h ⊢
  cases kind with
  | text limit allowBlank => exact textProblem?_iff_of_fits h
  | elementTypeLabel => exact elementTypeProblem?_iff_of_fits h
  | relationshipTypeLabel => exact relationshipTypeProblem?_iff_of_fits h
  | integer least greatest =>
    exact integerProblem?_iff_of_fits (fun n => fitsInt64_of_kind hkind) h

/-! Actions. -/

/-- What the phase can find wrong with a field of an action that keeps to the schema: it is required
and null, it has a value that is a misfit, or it is a coordinate that is null while the other is
not. -/
inductive ActionGap (oracle : Oracle) (op : OpKind) (fields : List (String × Json)) :
    Field → SchemaProblem → Prop
  | requiredNull {f : Field} (hf : f ∈ op.contract.required)
    (hnull : fields.lookup f.spelling = some .null) : ActionGap oracle op fields f (.requiredBy op)
  | misfit {f : Field} {v : Json} {problem : SchemaProblem} (hf : f ∈ op.contract.fields)
    (hv : fields.lookup f.spelling = some v) (h : Misfit oracle f.kind v problem) :
    ActionGap oracle op fields f problem
  | withoutX (hop : op = .addToView) (hx : fields.lookup Field.x.spelling = some .null)
    (hy : fields.lookup Field.y.spelling ≠ some .null) :
    ActionGap oracle op fields .x .coordinateAlone
  | withoutY (hop : op = .addToView) (hx : fields.lookup Field.x.spelling ≠ some .null)
    (hy : fields.lookup Field.y.spelling = some .null) :
    ActionGap oracle op fields .y .coordinateAlone

theorem Misfit.not_isNull {kind : FieldKind} {v : Json} (h : Misfit oracle kind v problem) :
    ¬ v.isNull := by
  cases h <;> exact Bool.false_ne_true

section

variable (h : IsFlatAction op fields)

include h

theorem present?_eq_none_iff (f : Field) :
    Json.present? fields f.spelling = none ↔ fields.lookup f.spelling = some .null := by
  obtain ⟨v, hv, -⟩ := h.values f
  rw [Json.present?, hv]
  cases v <;> simp [Option.filter, Json.isNull]

theorem mem_requiredIssues_iff {i : Issue} : i ∈ requiredIssues index op fields ↔
    ∃ f ∈ op.contract.required, fields.lookup f.spelling = some .null ∧
      actionIssue index (some f.spelling) (.requiredBy op) = i := by
  simp only [requiredIssues, List.mem_map, List.mem_filter, Option.isNone_iff_eq_none,
    present?_eq_none_iff h, and_assoc]

theorem mem_valueIssues_iff {i : Issue} : i ∈ valueIssues oracle index op fields ↔
    ∃ f ∈ op.contract.fields, ∃ v problem, fields.lookup f.spelling = some v ∧
      Misfit oracle f.kind v problem ∧ actionIssue index (some f.spelling) problem = i := by
  rw [valueIssues, List.mem_filterMap]
  refine exists_congr fun f => and_congr_right fun _ => ?_
  obtain ⟨w, hw, hfits⟩ := h.values f
  simp only [Option.bind_eq_some_iff, Option.map_eq_some_iff, Json.present?_eq_some_iff, hw,
    Option.some.injEq]
  constructor
  · rintro ⟨v, ⟨rfl, hnull⟩, problem, hproblem, rfl⟩
    have hfits := hfits.resolve_left fun heq => hnull (heq ▸ rfl)
    exact ⟨w, problem, rfl, (valueProblem?_iff_of_fits hfits).mp hproblem, rfl⟩
  · rintro ⟨v, problem, rfl, hmisfit, rfl⟩
    have hfits := hfits.resolve_left fun heq => hmisfit.not_isNull (heq ▸ rfl)
    have hproblem := (valueProblem?_iff_of_fits hfits).mpr hmisfit
    exact ⟨w, ⟨rfl, hmisfit.not_isNull⟩, problem, hproblem, rfl⟩

theorem mem_coordinateIssues_iff {i : Issue} : i ∈ coordinateIssues index op fields ↔
    op = .addToView ∧
      (fields.lookup Field.x.spelling = some .null ∧ fields.lookup Field.y.spelling ≠ some .null ∧
          actionIssue index (some Field.x.spelling) .coordinateAlone = i ∨
        fields.lookup Field.x.spelling ≠ some .null ∧ fields.lookup Field.y.spelling = some .null ∧
          actionIssue index (some Field.y.spelling) .coordinateAlone = i) := by
  simp only [ne_eq, ← present?_eq_none_iff h]
  by_cases hop : op = .addToView
  · cases hx : Json.present? fields Field.x.spelling <;>
      cases hy : Json.present? fields Field.y.spelling <;>
      simp [coordinateIssues, hop, hx, hy, eq_comm]
  · simp [coordinateIssues, hop]

/-- The issues of an action that keeps to the schema and is normalized. -/
theorem mem_fieldIssues_iff {i : Issue} : i ∈ fieldIssues oracle index op (ownFields op fields) ↔
    ∃ f problem, ActionGap oracle op fields f problem ∧
      actionIssue index (some f.spelling) problem = i := by
  rw [fieldIssues, unusedIssues_ownFields, requiredIssues_ownFields, valueIssues_ownFields,
    coordinateIssues_ownFields, List.nil_append, List.mem_append, List.mem_append,
    mem_requiredIssues_iff h, mem_valueIssues_iff h, mem_coordinateIssues_iff h]
  constructor
  · rintro ((⟨f, hf, hnull, rfl⟩ | ⟨f, hf, v, problem, hv, hmisfit, rfl⟩) |
      ⟨hop, ⟨hx, hy, rfl⟩ | ⟨hx, hy, rfl⟩⟩)
    · exact ⟨f, _, .requiredNull hf hnull, rfl⟩
    · exact ⟨f, _, .misfit hf hv hmisfit, rfl⟩
    · exact ⟨.x, _, .withoutX hop hx hy, rfl⟩
    · exact ⟨.y, _, .withoutY hop hx hy, rfl⟩
  · rintro ⟨f, problem, hgap, rfl⟩
    cases hgap with
    | requiredNull hf hnull => exact Or.inl (Or.inl ⟨f, hf, hnull, rfl⟩)
    | misfit hf hv hmisfit => exact Or.inl (Or.inr ⟨f, hf, _, _, hv, hmisfit, rfl⟩)
    | withoutX hop hx hy => exact Or.inr ⟨hop, Or.inl ⟨hx, hy, rfl⟩⟩
    | withoutY hop hx hy => exact Or.inr ⟨hop, Or.inr ⟨hx, hy, rfl⟩⟩

end

/-! Plans. -/

/-- The item with the given number in a list that a plan holds. -/
def itemAt? (plan : Json) (f : PlanField) (index : Nat) : Option Json :=
  (plan.get? f.spelling).bind fun v => v.items?.bind (·[index]?)

/-- What the phase can find wrong with a plan that keeps to the schema: something in one of its
actions, or a question of nothing but blanks. -/
inductive Gap (oracle : Oracle) (plan : Json) : Issue → Prop
  | action {index : Nat} {op : OpKind} {fields : List (String × Json)} {f : Field}
    {problem : SchemaProblem} (hitem : itemAt? plan .actions index = some (.obj fields))
    (hop : fields.lookup "op" = some (.str op.name)) (h : ActionGap oracle op fields f problem) :
    Gap oracle plan (actionIssue index (some f.spelling) problem)
  | blankQuestion {index : Nat} {s : String}
    (hitem : itemAt? plan .questions index = some (.str s)) (h : Text.isBlank s) :
    Gap oracle plan (planIssue (some s!"questions[{index}]") .blank)

theorem mem_actionListIssues_iff {items : List Json} {i : Issue} :
    i ∈ actionListIssues oracle index items ↔
      ∃ k item, items[k]? = some item ∧ i ∈ actionIssues oracle (index + k) item := by
  induction items generalizing index with
  | nil => simp [actionListIssues]
  | cons item items ih =>
    rw [actionListIssues, List.mem_append, ih]
    constructor
    · rintro (hi | ⟨k, item', hitem, hi⟩)
      · exact ⟨0, item, rfl, hi⟩
      · exact ⟨k + 1, item', hitem, by rwa [Nat.add_right_comm, Nat.add_assoc] at hi⟩
    · rintro ⟨k, item', hitem, hi⟩
      cases k with
      | zero => exact Or.inl (Option.some.inj hitem ▸ hi)
      | succ k => exact Or.inr ⟨k, item', hitem, by rwa [Nat.add_right_comm, Nat.add_assoc]⟩

theorem mem_questionListIssues_iff {questions : List Json} {i : Issue} :
    i ∈ questionListIssues index questions ↔ ∃ k question problem, questions[k]? = some question ∧
      questionProblem? question = some problem ∧
        planIssue (some s!"questions[{index + k}]") problem = i := by
  induction questions generalizing index with
  | nil => simp [questionListIssues]
  | cons question questions ih =>
    rw [questionListIssues, List.mem_append, ih, Option.mem_toList, Option.map_eq_some_iff]
    constructor
    · rintro (⟨problem, hproblem, rfl⟩ | ⟨k, question', problem, hitem, hproblem, rfl⟩)
      · exact ⟨0, question, problem, rfl, hproblem, rfl⟩
      · exact ⟨k + 1, question', problem, hitem, hproblem, by rw [Nat.add_assoc, Nat.add_comm 1]⟩
    · rintro ⟨k, question', problem, hitem, hproblem, rfl⟩
      cases k with
      | zero => exact Or.inl ⟨problem, Option.some.inj hitem ▸ hproblem, rfl⟩
      | succ k =>
        exact Or.inr ⟨k, question', problem, hitem, hproblem, by rw [Nat.add_assoc, Nat.add_comm 1]⟩

theorem itemAt?_obj {f : PlanField} {items : List Json}
    (h : fields.lookup f.spelling = some (.arr items)) (k : Nat) :
    itemAt? (.obj fields) f k = items[k]? := by
  rw [itemAt?, Json.get?, h]
  rfl

/-- Of a plan that keeps to the schema, only questions can have issues besides the actions. -/
theorem headIssues_of_isFlatPlan (h : IsFlatPlan fields) :
    headIssues fields = questionsIssues fields := by
  obtain ⟨_, hversionName, hversion⟩ := h.schemaVersion
  obtain ⟨_, hstatusName, hstatus⟩ := h.status
  obtain ⟨_, hsummary, hlength⟩ := h.summary
  obtain ⟨_, hactions, -⟩ := h.actions
  have hmissing : ∀ f ∈ PlanField.required, (Json.present? fields f.spelling).isSome := by
    simp [PlanField.required, Json.present?, hversion, hstatus, hsummary, hactions, Json.isNull]
  rw [headIssues, unknownFieldIssues_eq_nil_iff.mpr fun f hf _ => h.known f hf,
    missingIssues_eq_nil_iff.mpr hmissing,
    (choiceIssues_eq_nil_iff (hmissing .schemaVersion (by decide))).mpr ⟨_, hversionName, hversion⟩,
    (choiceIssues_eq_nil_iff (hmissing .status (by decide))).mpr ⟨_, hstatusName, hstatus⟩,
    (summaryIssues_eq_nil_iff (hmissing .summary (by decide))).mpr ⟨_, hsummary, hlength⟩]
  rfl

theorem questionProblem?_eq_some_iff (h : s.length ≤ Limits.maxQuestion) :
    questionProblem? (.str s) = some problem ↔ Text.isBlank s ∧ SchemaProblem.blank = problem := by
  cases hblank : Text.isBlank s <;>
    simp [questionProblem?, Json.text?, hblank, Nat.not_lt.mpr h]

theorem mem_questionsIssues_iff (h : IsFlatPlan fields) {i : Issue} : i ∈ questionsIssues fields ↔
    ∃ k s, itemAt? (.obj fields) .questions k = some (.str s) ∧ Text.isBlank s ∧
      planIssue (some s!"questions[{k}]") .blank = i := by
  rcases h.questions with hnull | ⟨items, hlookup, hcount, hitems⟩
  · simp [questionsIssues, hnull, itemAt?, Json.get?, Json.items?]
  · have hissues : questionsIssues fields = questionListIssues 0 items := by
      simp [questionsIssues, hlookup, Nat.not_lt.mpr hcount]
    simp only [hissues, mem_questionListIssues_iff, itemAt?_obj hlookup, Nat.zero_add]
    constructor
    · rintro ⟨k, question, problem, hitem, hproblem, rfl⟩
      obtain ⟨s, rfl, -, hlength⟩ := hitems question (List.mem_of_getElem? hitem)
      obtain ⟨hblank, rfl⟩ := (questionProblem?_eq_some_iff hlength).mp hproblem
      exact ⟨k, s, hitem, hblank, rfl⟩
    · rintro ⟨k, s, hitem, hblank, rfl⟩
      obtain ⟨s', heq, -, hlength⟩ := hitems _ (List.mem_of_getElem? hitem)
      cases heq
      have hproblem := (questionProblem?_eq_some_iff hlength).mpr ⟨hblank, rfl⟩
      exact ⟨k, .str s, .blank, hitem, hproblem, rfl⟩

theorem opOf?_of_named (h : fields.lookup "op" = some (.str op.name)) : opOf? fields = some op := by
  simp [opOf?, h, Json.text?, OpKind.ofName?_name]

theorem mem_actionsIssues_iff (h : IsFlatPlan fields) {i : Issue} :
    i ∈ actionsIssues oracle (normalFields fields) ↔ ∃ k op fs f problem,
      itemAt? (.obj fields) .actions k = some (.obj fs) ∧
      fs.lookup "op" = some (.str op.name) ∧ ActionGap oracle op fs f problem ∧
      actionIssue k (some f.spelling) problem = i := by
  obtain ⟨items, hlookup, hcount, hitems⟩ := h.actions
  have hissues : actionsIssues oracle (normalFields fields) =
      actionListIssues oracle 0 (items.map normalizeAction) := by
    simp [actionsIssues, lookup_actions_normalFields, hlookup, normalizeActions,
      Nat.not_lt.mpr hcount]
  have hitem {k : Nat} {op : OpKind} {fs : List (String × Json)} (hflat : IsFlatAction op fs) :
      i ∈ actionIssues oracle k (normalizeAction (.obj fs)) ↔
        ∃ f problem, ActionGap oracle op fs f problem ∧
          actionIssue k (some f.spelling) problem = i := by
    have hop := opOf?_of_named hflat.named
    rw [normalizeAction_of_opOf? hop, actionIssues_of_opOf? (opOf?_ownFields.trans hop),
      mem_fieldIssues_iff hflat]
  simp only [hissues, mem_actionListIssues_iff, itemAt?_obj hlookup, Nat.zero_add,
    List.getElem?_map, Option.map_eq_some_iff]
  constructor
  · rintro ⟨k, _, ⟨item, hk, rfl⟩, hi⟩
    obtain ⟨op, fs, rfl, hflat⟩ := hitems item (List.mem_of_getElem? hk)
    obtain ⟨f, problem, hgap, rfl⟩ := (hitem hflat).mp hi
    exact ⟨k, op, fs, f, problem, hk, hflat.named, hgap, rfl⟩
  · rintro ⟨k, op, fs, f, problem, hk, hop, hgap, rfl⟩
    obtain ⟨op', _, heq, hflat⟩ := hitems _ (List.mem_of_getElem? hk)
    cases heq
    obtain rfl : op' = op :=
      Option.some.inj ((opOf?_of_named hflat.named).symm.trans (opOf?_of_named hop))
    exact ⟨k, _, ⟨_, hk, rfl⟩, (hitem hflat).mpr ⟨f, problem, hgap, rfl⟩⟩

/-- For every value: if the schema phase accepts it then, written out in full, it keeps to the
schema for producers, and if it keeps to that schema then the errors of the phase on its normal form
are its gaps. -/
theorem producerSchema_agrees (oracle : Oracle) (value : Json) :
    ((checkSchema oracle value).errors = [] → Json.conforms producerSchema (complete value)) ∧
    (Json.conforms producerSchema value →
      ∀ i, i ∈ (checkSchema oracle (normalize value)).errors ↔ Gap oracle value i) := by
  constructor
  · intro haccepted
    cases value with
    | obj fields =>
      rw [errors_checkSchema, planIssues_eq_nil_iff] at haccepted
      exact conforms_producerSchema.mpr ⟨_, rfl, haccepted.isFlatPlan⟩
    | _ => cases haccepted
  · intro hconforms i
    obtain ⟨fields, rfl, hflat⟩ := conforms_producerSchema.mp hconforms
    rw [normalize_obj, errors_checkSchema, planIssues_eq, List.mem_append, headIssues_normalFields,
      headIssues_of_isFlatPlan hflat, mem_questionsIssues_iff hflat, mem_actionsIssues_iff hflat]
    constructor
    · rintro (⟨k, s, hitem, hblank, rfl⟩ | ⟨k, op, fs, f, problem, hitem, hop, hgap, rfl⟩)
      · exact .blankQuestion hitem hblank
      · exact .action hitem hop hgap
    · rintro (⟨hitem, hop, hgap⟩ | ⟨hitem, hblank⟩)
      · exact Or.inr ⟨_, _, _, _, _, hitem, hop, hgap, rfl⟩
      · exact Or.inl ⟨_, _, hitem, hblank, rfl⟩

/-- A plan that leaves most fields out, and written out in full the same plan with a blank name. -/
theorem producerSchema_agrees_sample :
    let oracle : Oracle := ⟨fun _ _ _ => true, fun _ => some .businessActor, fun _ => none⟩
    let plan (name : String) : Json := .obj [
      ("schema_version", .str "1.0"), ("status", .str "ready"), ("summary", .str ""),
      ("actions", .arr [.obj [("colour", .null), ("op", .str "create_element"),
        ("type", .str "Actor"), ("name", .str name)]])]
    Json.conforms producerSchema (complete (plan "Clerk")) ∧
      Json.conforms producerSchema (complete (plan " ")) ∧
      Gap oracle (complete (plan " ")) (actionIssue 0 (some "name") .blank) := by
  intro oracle plan
  have hblank : Json.conforms producerSchema (complete (plan " ")) := by decide +kernel
  refine ⟨(producerSchema_agrees oracle (plan "Clerk")).1 (by decide +kernel), hblank, ?_⟩
  exact ((producerSchema_agrees oracle (complete (plan " "))).2 hblank _).mp (by decide +kernel)

end ArchChange.Validation
