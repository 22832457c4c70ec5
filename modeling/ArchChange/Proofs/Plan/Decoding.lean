import ArchChange.Plan.Wire
import ArchChange.Proofs.Json.Record
/-!
What decodes to a plan. The fields of an object spell an action when they hold the values that the
action is encoded with, where an absent field is as good as null; what spells a plan is decoded to
that plan.
-/
namespace ArchChange

/-- The integers that fit 64 bits with sign. -/
def FitsInt64 (n : Int) : Prop :=
  -0x8000000000000000 ≤ n ∧ n < 0x8000000000000000

theorem OpKind.ofName?_name (op : OpKind) : OpKind.ofName? op.name = some op := by
  cases op <;> decide

theorem SchemaVersion.ofName?_name (v : SchemaVersion) : SchemaVersion.ofName? v.name = some v := by
  cases v <;> decide

theorem PlanStatus.ofName?_name (s : PlanStatus) : PlanStatus.ofName? s.name = some s := by
  cases s <;> decide

theorem Field.ofSpelling?_spelling (f : Field) : Field.ofSpelling? f.spelling = some f := by
  cases f <;> decide

theorem Field.spelling_ne_op (f : Field) : f.spelling ≠ "op" := by
  cases f <;> decide

/-- The keys that an operation uses are those of the fields in its contract. -/
theorem OpKind.declaresKey_iff {op : OpKind} {key : String} :
    op.declaresKey key ↔ ∃ f ∈ op.contract.fields, f.spelling = key := by
  simp only [declaresKey, Option.any_eq_true, Contract.declares, List.contains_iff_mem]
  constructor
  · rintro ⟨f, hf, hmem⟩
    exact ⟨f, hmem, by simpa using List.find?_some hf⟩
  · rintro ⟨f, hmem, rfl⟩
    exact ⟨f, f.ofSpelling?_spelling, hmem⟩

theorem lookup_mapValues (g : String → Json → Json) (fields : List (String × Json)) (key : String) :
    (fields.map fun p => (p.1, g p.1 p.2)).lookup key = (fields.lookup key).map (g key) := by
  induction fields with
  | nil => rfl
  | cons p fields ih =>
    rw [List.map_cons, List.lookup_cons, List.lookup_cons, ih]
    cases hkey : key == p.1 with
    | true => rw [beq_iff_eq.mp hkey, Option.map_some]
    | false => rfl

namespace Json

theorem int64?_int {n : Int} (h : FitsInt64 n) : (Json.int n).int64? = some n :=
  if_pos h

theorem list?_text?_strings (texts : List String) : list? text? (strings texts) = some texts := by
  refine mapM_of_forall₂ ?_
  rw [List.forall₂_map_left_iff]
  exact List.forall₂_same.mpr fun _ _ => rfl

end Json

namespace Action

/-- The coordinates and sizes in an action fit 64 bits. -/
def InRange : Action → Prop
  | addToView _ _ x y width height => ∀ o ∈ [x, y, width, height], ∀ n ∈ o, FitsInt64 n
  | _ => True

/-- The fields spell an action. -/
structure SpelledBy (a : Action) (fields : List (String × Json)) : Prop where
  op : fields.lookup "op" = some (.str a.op.name)
  slots : a.op.contract.fields.map (fun f => (f, (fields.lookup f.spelling).getD .null)) = a.slots

/-- What may be null is read as it was written. -/
def readNullable {α : Type} (read : Json → Option α) : Json → Option (Option α)
  | .null => some none
  | v => (read v).map some

theorem readNullable_optionalText (o : Option String) :
    readNullable Json.text? (optionalText o) = some o := by
  cases o <;> rfl

theorem readNullable_optionalInt {o : Option Int} (h : ∀ n ∈ o, FitsInt64 n) :
    readNullable Json.int64? (optionalInt o) = some o := by
  cases o with
  | none => rfl
  | some n =>
    change (Json.int64? (.int n)).map some = _
    rw [Json.int64?_int (h n rfl), Option.map_some]

theorem text?_eq (slots : Slots) (f : Field) : slots.text? f = ((slots f).getD .null).text? := by
  unfold Slots.text?
  cases slots f <;> rfl

theorem optional?_eq {α : Type} (slots : Slots) (f : Field) (read : Json → Option α) :
    slots.optional? f read = readNullable read ((slots f).getD .null) := by
  unfold Slots.optional?
  cases slots f with
  | none => rfl
  | some v => cases v <;> rfl

theorem ofSlots?_of_slots {slots : Slots} {a : Action} (hrange : a.InRange)
    (h : a.op.contract.fields.map (fun f => (f, (slots f).getD .null)) = a.slots) :
    ofSlots? slots a.op = some a := by
  cases a <;>
    simp only [op, OpKind.contract, Contract.fields, List.cons_append, List.nil_append,
      List.append_nil, List.map_cons, List.map_nil, Action.slots, List.cons.injEq, Prod.mk.injEq,
      true_and, and_true] at h
  case addToView view element x y width height =>
    simp [op, ofSlots?, text?_eq, optional?_eq, h, Json.text?,
      readNullable_optionalInt (hrange x (by simp)), readNullable_optionalInt (hrange y (by simp)),
      readNullable_optionalInt (hrange width (by simp)),
      readNullable_optionalInt (hrange height (by simp))]
  all_goals
    simp [op, ofSlots?, text?_eq, optional?_eq, h, Json.text?, readNullable_optionalText]

theorem ofJson?_of_spelledBy {a : Action} {fields : List (String × Json)} (hrange : a.InRange)
    (h : a.SpelledBy fields) : ofJson? (.obj fields) = some a := by
  simp only [ofJson?, h.op, Option.bind_eq_bind, Option.bind_some, Json.text?,
    OpKind.ofName?_name]
  exact ofSlots?_of_slots hrange h.slots

end Action

namespace ChangePlan

/-- The integers in a plan fit 64 bits. -/
def InRange (p : ChangePlan) : Prop :=
  ∀ a ∈ p.actions, a.InRange

/-- The fields spell a plan; it has no questions if they are absent or null. -/
structure SpelledBy (p : ChangePlan) (fields : List (String × Json)) : Prop where
  schemaVersion : fields.lookup PlanField.schemaVersion.spelling = some (.str p.schemaVersion.name)
  status : fields.lookup PlanField.status.spelling = some (.str p.status.name)
  summary : fields.lookup PlanField.summary.spelling = some (.str p.summary)
  questions : Json.present? fields PlanField.questions.spelling = some (.strings p.questions) ∨
    Json.present? fields PlanField.questions.spelling = none ∧ p.questions = []
  actions : ∃ items, fields.lookup PlanField.actions.spelling = some (.arr items) ∧
    List.Forall₂ (fun item a => ∃ fs, item = .obj fs ∧ a.SpelledBy fs) items p.actions

theorem defaulted?_questions {p : ChangePlan} {fields : List (String × Json)}
    (h : p.SpelledBy fields) : Json.defaulted? fields PlanField.questions.spelling [] questionsOf? =
      some p.questions := by
  have hquestions := h.questions
  unfold Json.present? at hquestions
  unfold Json.defaulted?
  cases hlookup : fields.lookup PlanField.questions.spelling with
  | none => simpa [hlookup, eq_comm] using hquestions
  | some v =>
    rw [hlookup] at hquestions
    rcases hquestions with hstrings | ⟨hnull, hnone⟩
    · obtain ⟨hv, -⟩ := Option.filter_eq_some_iff.mp hstrings
      cases hv
      exact Json.list?_text?_strings p.questions
    · obtain rfl : v = .null := by
        cases v <;> simp [Option.filter, Json.isNull] at hnull ⊢
      rw [hnone]
      rfl

/-- What spells a plan is decoded to it. -/
theorem ofJson?_of_spelledBy {p : ChangePlan} {fields : List (String × Json)} (hrange : p.InRange)
    (h : p.SpelledBy fields) : ofJson? (.obj fields) = some p := by
  obtain ⟨items, hitems, hspelled⟩ := h.actions
  have hactions : items.mapM Action.ofJson? = some p.actions := by
    refine mapM_of_forall₂ (List.forall₂_iff_zip.mpr ⟨hspelled.length_eq, fun hmem => ?_⟩)
    obtain ⟨fs, rfl, hfs⟩ := List.forall₂_zip hspelled hmem
    exact Action.ofJson?_of_spelledBy (hrange _ (List.of_mem_zip hmem).2) hfs
  simp [ofJson?, Json.record?, Json.required?, h.schemaVersion, h.status, h.summary, hitems,
    defaulted?_questions h, Json.name?, SchemaVersion.ofName?_name, PlanStatus.ofName?_name,
    Json.text?, Json.list?, Json.items?, hactions]

end ChangePlan

end ArchChange
