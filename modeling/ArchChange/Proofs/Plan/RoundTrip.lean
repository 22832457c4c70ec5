import ArchChange.Plan.Normal
import ArchChange.Proofs.Plan.Decoding
/-!
Decoding undoes encoding. What producers write of a plan need not be what it is encoded as: actions
carry fields that their operation does not use and lack some that are null. Normalized, it decodes
to the plan all the same.
-/
namespace ArchChange

namespace Action

/-- The fields that an action is encoded with. -/
def fields (a : Action) : List (String × Json) :=
  ("op", .str a.op.name) :: a.slots.map fun s => (s.1.spelling, s.2)

/-- Fields that an action may be written with: in any order, those that it is encoded with but some
optional ones that are null, and strays that its operation does not use. -/
def WrittenAs (a : Action) (fields : List (String × Json)) : Prop :=
  ∃ kept strays, fields.Perm (kept ++ strays) ∧ kept.Sublist a.fields ∧
    (∀ f ∈ a.fields, f ∈ kept ∨ ∃ g ∈ a.op.contract.optional, f = (g.spelling, .null)) ∧
    ∀ f ∈ strays, f.1 ≠ "op" ∧ ¬ a.op.declaresKey f.1

theorem map_fst_fields (a : Action) :
    a.fields.map Prod.fst = "op" :: a.op.contract.fields.map Field.spelling := by
  rw [fields, List.map_cons, List.map_map, ← a.slots_fst, List.map_map]
  rfl

theorem nodup_keys (a : Action) : (a.fields.map Prod.fst).Nodup := by
  rw [map_fst_fields]
  cases a.op <;> decide

theorem op_mem_fields (a : Action) : ("op", .str a.op.name) ∈ a.fields :=
  List.mem_cons_self

theorem slot_mem_fields {a : Action} {s : Field × Json} (hs : s ∈ a.slots) :
    (s.1.spelling, s.2) ∈ a.fields :=
  List.mem_cons_of_mem _ (List.mem_map_of_mem hs)

theorem writtenAs_fields (a : Action) : a.WrittenAs a.fields :=
  ⟨a.fields, [], by simp, List.Sublist.refl _, fun _ => Or.inl, by simp⟩

end Action

namespace Plan

/-- What normalizing leaves of the fields of an action. -/
def ownFields (op : OpKind) (fields : List (String × Json)) : List (String × Json) :=
  fields.map fun f => if f.1 = "op" ∨ op.declaresKey f.1 then f else (f.1, .null)

theorem mem_ownFields_iff {op : OpKind} {fields : List (String × Json)} {k : String} {v : Json}
    (hk : k = "op" ∨ op.declaresKey k) : (k, v) ∈ ownFields op fields ↔ (k, v) ∈ fields := by
  rw [ownFields, List.mem_map]
  constructor
  · rintro ⟨f, hf, heq⟩
    split at heq
    · rwa [heq] at hf
    · next hown =>
      cases heq
      exact absurd hk hown
  · intro hmem
    exact ⟨(k, v), hmem, if_pos hk⟩

section

variable {a : Action} {fields : List (String × Json)} (h : a.WrittenAs fields)

include h

/-- The entries under an action's own keys are those that it is encoded with. -/
theorem eq_of_writtenAs {k : String} {v w : Json} (hv : (k, v) ∈ a.fields)
    (hw : (k, w) ∈ fields) : w = v := by
  obtain ⟨kept, strays, hperm, hkept, -, hstrays⟩ := h
  rcases List.mem_append.mp (hperm.mem_iff.mp hw) with hw | hw
  · have heq := List.inj_on_of_nodup_map a.nodup_keys (hkept.subset hw) hv rfl
    exact congrArg Prod.snd heq
  · have hkey : k ∈ a.fields.map Prod.fst := List.mem_map_of_mem hv
    rw [a.map_fst_fields, List.mem_cons, List.mem_map] at hkey
    obtain ⟨hop, hother⟩ := hstrays _ hw
    rcases hkey with rfl | hkey
    · exact absurd rfl hop
    · exact absurd (OpKind.declaresKey_iff.mpr hkey) hother

theorem lookup_op_of_writtenAs : fields.lookup "op" = some (.str a.op.name) := by
  refine lookup_eq_some_of_unique ?_ fun w hw => eq_of_writtenAs h a.op_mem_fields hw
  obtain ⟨kept, strays, hperm, -, hall, -⟩ := h
  rcases hall _ a.op_mem_fields with hmem | ⟨g, -, heq⟩
  · exact hperm.mem_iff.mpr (List.mem_append_left _ hmem)
  · exact absurd (congrArg Prod.fst heq).symm g.spelling_ne_op

/-- Normalized, the fields spell the action. -/
theorem spelledBy_of_writtenAs : a.SpelledBy (ownFields a.op fields) := by
  constructor
  · have hop : ∀ w, ("op", w) ∈ ownFields a.op fields ↔ ("op", w) ∈ fields :=
      fun w => mem_ownFields_iff (Or.inl rfl)
    refine lookup_eq_some_of_unique ?_ fun w hw =>
      eq_of_writtenAs h a.op_mem_fields ((hop w).mp hw)
    exact (hop _).mpr (mem_of_lookup (lookup_op_of_writtenAs h))
  · rw [← a.slots_fst, List.map_map]
    refine (List.map_congr_left fun s hs => ?_).trans (List.map_id _)
    have hown : ∀ w, (s.1.spelling, w) ∈ ownFields a.op fields ↔ (s.1.spelling, w) ∈ fields :=
      fun w => mem_ownFields_iff (Or.inr (OpKind.declaresKey_iff.mpr
        ⟨s.1, a.slots_fst ▸ List.mem_map_of_mem hs, rfl⟩))
    refine Prod.ext rfl (getD_lookup_of_unique ?_ fun w hw =>
      eq_of_writtenAs h (Action.slot_mem_fields hs) ((hown w).mp hw))
    rw [hown]
    obtain ⟨kept, strays, hperm, -, hall, -⟩ := h
    rcases hall _ (Action.slot_mem_fields hs) with hmem | ⟨g, -, heq⟩
    · exact Or.inr (hperm.mem_iff.mpr (List.mem_append_left _ hmem))
    · exact Or.inl (congrArg Prod.snd heq)

theorem normalizeAction_of_writtenAs :
    normalizeAction (.obj fields) = .obj (ownFields a.op fields) := by
  have hop : opOf? fields = some a.op := by
    rw [opOf?, lookup_op_of_writtenAs h, Option.bind_some]
    exact OpKind.ofName?_name a.op
  simp only [normalizeAction, hop]
  rfl

end

/-- An action as it is encoded is in normal form. -/
theorem normalizeAction_toJson (a : Action) : normalizeAction a.toJson = a.toJson := by
  have hown : ownFields a.op a.fields = a.fields := by
    refine (List.map_congr_left fun f hf => if_pos ?_).trans (List.map_id _)
    have hkey : f.1 ∈ a.fields.map Prod.fst := List.mem_map_of_mem hf
    rw [a.map_fst_fields, List.mem_cons, List.mem_map] at hkey
    exact hkey.imp_right OpKind.declaresKey_iff.mpr
  exact (normalizeAction_of_writtenAs a.writtenAs_fields).trans (congrArg Json.obj hown)

end Plan

namespace ChangePlan

/-- Fields that the questions of a plan may be written with: none at all or null if there are
none. -/
inductive QuestionsWrittenAs : List String → List (String × Json) → Prop
  | full (questions : List String) :
    QuestionsWrittenAs questions [(PlanField.questions.spelling, .strings questions)]
  | null : QuestionsWrittenAs [] [(PlanField.questions.spelling, .null)]
  | absent : QuestionsWrittenAs [] []

/-- The fields of a plan, given those for its questions and the items for its actions. -/
def layout (p : ChangePlan) (questions : List (String × Json)) (items : List Json) :
    List (String × Json) :=
  [(PlanField.schemaVersion.spelling, .str p.schemaVersion.name),
    (PlanField.status.spelling, .str p.status.name),
    (PlanField.summary.spelling, .str p.summary)] ++ questions ++
    [(PlanField.actions.spelling, .arr items)]

/-- A value that a plan may be written as: in any order its fields, with actions in which strays
stand and null fields lack, and without questions or null for them if there are none. -/
def WrittenAs (p : ChangePlan) (value : Json) : Prop :=
  ∃ fields questions items, value = .obj fields ∧ QuestionsWrittenAs p.questions questions ∧
    List.Forall₂ (fun item a => ∃ fs, item = .obj fs ∧ a.WrittenAs fs) items p.actions ∧
    fields.Perm (p.layout questions items)

theorem spelledBy_of_perm_layout {p : ChangePlan} {fields questions : List (String × Json)}
    {items : List Json} (hquestions : QuestionsWrittenAs p.questions questions)
    (hitems : List.Forall₂ (fun item a => ∃ fs, item = .obj fs ∧ a.SpelledBy fs) items p.actions)
    (hperm : fields.Perm (p.layout questions items)) : p.SpelledBy fields := by
  obtain ⟨version, status, summary, asked, actions⟩ := p
  have hlookup : ∀ k, fields.lookup k =
      (layout ⟨version, status, summary, asked, actions⟩ questions items).lookup k := by
    refine fun k => lookup_eq_of_perm hperm ?_
    cases hquestions <;> simp [layout, PlanField.spelling]
  refine ⟨hlookup _, hlookup _, hlookup _, ?_, items, ?_, hitems⟩
  · rw [Json.present?, hlookup]
    cases hquestions with
    | full => exact Or.inl rfl
    | null => exact Or.inr ⟨rfl, rfl⟩
    | absent => exact Or.inr ⟨rfl, rfl⟩
  · rw [hlookup]
    cases hquestions <;> rfl

end ChangePlan

namespace Plan

/-- What normalizing makes of the fields of a plan. -/
def normalFields (fields : List (String × Json)) : List (String × Json) :=
  fields.map fun f => if f.1 = PlanField.actions.spelling then (f.1, normalizeActions f.2) else f

theorem normalFields_layout {p : ChangePlan} {questions : List (String × Json)}
    (h : ChangePlan.QuestionsWrittenAs p.questions questions) (items : List Json) :
    normalFields (p.layout questions items) = p.layout questions (items.map normalizeAction) := by
  generalize p.questions = asked at h
  cases h <;> rfl

theorem forall₂_normalizeAction {items : List Json} {actions : List Action}
    (h : List.Forall₂ (fun item a => ∃ fs, item = .obj fs ∧ Action.WrittenAs a fs) items actions) :
    List.Forall₂ (fun item a => ∃ fs, item = .obj fs ∧ Action.SpelledBy a fs)
      (items.map normalizeAction) actions := by
  rw [List.forall₂_map_left_iff]
  refine h.imp ?_
  rintro item a ⟨fs, rfl, hfs⟩
  exact ⟨_, normalizeAction_of_writtenAs hfs, spelledBy_of_writtenAs hfs⟩

/-- Normalized, what a plan may be written as spells it. -/
theorem spelledBy_of_planWrittenAs {p : ChangePlan} {value : Json} (h : p.WrittenAs value) :
    ∃ fields, normalize value = .obj fields ∧ p.SpelledBy fields := by
  obtain ⟨fields, questions, items, rfl, hquestions, hitems, hperm⟩ := h
  refine ⟨normalFields fields, rfl, ?_⟩
  refine ChangePlan.spelledBy_of_perm_layout hquestions (forall₂_normalizeAction hitems) ?_
  rw [← normalFields_layout hquestions]
  exact hperm.map _

theorem normalize_toJson (p : ChangePlan) : normalize p.toJson = p.toJson := by
  have hactions : (p.actions.map Action.toJson).map normalizeAction =
      p.actions.map Action.toJson := by
    rw [List.map_map]
    exact List.map_congr_left fun a _ => normalizeAction_toJson a
  have hlayout := normalFields_layout (.full p.questions) (p.actions.map Action.toJson)
  rw [hactions] at hlayout
  exact congrArg Json.obj hlayout

theorem ofJson?_of_writtenAs {p : ChangePlan} (hrange : p.InRange) {value : Json}
    (h : p.WrittenAs value) : ChangePlan.ofJson? (normalize value) = some p := by
  obtain ⟨fields, hfields, hspelled⟩ := spelledBy_of_planWrittenAs h
  rw [hfields]
  exact ChangePlan.ofJson?_of_spelledBy hrange hspelled

theorem writtenAs_toJson (p : ChangePlan) : p.WrittenAs p.toJson := by
  refine ⟨_, _, p.actions.map Action.toJson, rfl, .full _, ?_, List.Perm.refl _⟩
  rw [List.forall₂_map_left_iff]
  exact List.forall₂_same.mpr fun a _ => ⟨a.fields, rfl, a.writtenAs_fields⟩

theorem ofJson?_toJson {p : ChangePlan} (hrange : p.InRange) :
    ChangePlan.ofJson? p.toJson = some p := by
  rw [← normalize_toJson]
  exact ofJson?_of_writtenAs hrange (writtenAs_toJson p)

/-- Decoding undoes encoding: however a plan is written, once normalized it decodes to the plan,
and what it is encoded as is in normal form. -/
theorem ofJson?_normalize (p : ChangePlan) :
    (p.InRange → ∀ value, p.WrittenAs value → ChangePlan.ofJson? (normalize value) = some p) ∧
      normalize p.toJson = p.toJson :=
  ⟨fun hrange _ hvalue => ofJson?_of_writtenAs hrange hvalue, normalize_toJson p⟩

/-- An action that lacks its null reference, and in which a coordinate and an unknown field
stray. -/
theorem ofJson?_normalize_sample :
    let p : ChangePlan := ⟨.v2, .ready, "One actor", [],
      [.createElement "BusinessActor" "Clerk" none (some "Files papers")]⟩
    let action : Json := .obj [("x", .int 7), ("note", .arr [.null]), ("op", .str "create_element"),
      ("type", .str "BusinessActor"), ("name", .str "Clerk"),
      ("documentation", .str "Files papers")]
    let value : Json := .obj [("schema_version", .str "2.0"), ("status", .str "ready"),
      ("summary", .str "One actor"), ("questions", .null), ("actions", .arr [action])]
    p.InRange ∧ p.WrittenAs value ∧ ChangePlan.ofJson? (normalize value) = some p := by
  intro p action value
  have hrange : p.InRange := by simp [p, ChangePlan.InRange, Action.InRange]
  have haction : (Action.createElement "BusinessActor" "Clerk" none (some "Files papers")).WrittenAs
      [("x", .int 7), ("note", .arr [.null]), ("op", .str "create_element"),
        ("type", .str "BusinessActor"), ("name", .str "Clerk"),
        ("documentation", .str "Files papers")] := by
    let strays : List (String × Json) := [("x", .int 7), ("note", .arr [.null])]
    refine ⟨[("op", .str "create_element"), ("type", .str "BusinessActor"), ("name", .str "Clerk"),
      ("documentation", .str "Files papers")], strays, @List.perm_append_comm _ strays _,
      ?_, ?_, ?_⟩
    · exact .cons_cons _ (.cons_cons _ (.cons_cons _ (.cons _ (.cons_cons _ .slnil))))
    · simp [Action.fields, Action.slots, Action.op, OpKind.name, OpKind.contract, Field.spelling,
        Action.optionalText]
    · exact List.forall_mem_cons.mpr ⟨by decide, List.forall_mem_singleton.mpr (by decide)⟩
  have hvalue : p.WrittenAs value :=
    ⟨_, [("questions", .null)], [action], rfl, .null, .cons ⟨_, rfl, haction⟩ .nil, .refl _⟩
  exact ⟨hrange, hvalue, (ofJson?_normalize p).1 hrange value hvalue⟩

end Plan

end ArchChange
