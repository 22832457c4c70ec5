import ArchChange.Proofs.Plan.RoundTrip
/-!
Plans in normal form. Normalizing keeps the fields that an operation uses and makes all others
null, so a second time it changes nothing, and what is decoded is the same before and after.
-/
namespace ArchChange

namespace Plan

variable {op : OpKind} {fields : List (String × Json)} {key : String}

/-- What normalizing leaves of the value of an action's field. -/
def ownValue (op : OpKind) (key : String) (value : Json) : Json :=
  if key = "op" ∨ op.declaresKey key then value else .null

/-- What normalizing leaves of the value of a plan's field. -/
def normalValue (key : String) (value : Json) : Json :=
  if key = PlanField.actions.spelling then normalizeActions value else value

theorem ownFields_eq (op : OpKind) (fields : List (String × Json)) :
    ownFields op fields = fields.map fun f => (f.1, ownValue op f.1 f.2) := by
  refine List.map_congr_left fun f _ => ?_
  by_cases hown : f.1 = "op" ∨ op.declaresKey f.1 <;> simp [ownValue, hown]

theorem normalFields_eq (fields : List (String × Json)) :
    normalFields fields = fields.map fun f => (f.1, normalValue f.1 f.2) := by
  refine List.map_congr_left fun f _ => ?_
  by_cases hactions : f.1 = PlanField.actions.spelling <;> simp [normalValue, hactions]

theorem normalizeAction_of_opOf? (h : opOf? fields = some op) :
    normalizeAction (.obj fields) = .obj (ownFields op fields) := by
  simp only [normalizeAction, h]
  rfl

theorem normalizeAction_of_no_op (h : opOf? fields = none) :
    normalizeAction (.obj fields) = .obj fields := by
  simp only [normalizeAction, h]

theorem normalize_obj (fields : List (String × Json)) :
    normalize (.obj fields) = .obj (normalFields fields) := rfl

/-- What an operation uses is found as it was. -/
theorem lookup_ownFields (h : key = "op" ∨ op.declaresKey key) :
    (ownFields op fields).lookup key = fields.lookup key := by
  have hid : ownValue op key = id := funext fun _ => if_pos h
  rw [ownFields_eq, lookup_mapValues, hid, Option.map_id, id]

theorem lookup_ownFields_of_mem {f : Field} (hf : f ∈ op.contract.fields) :
    (ownFields op fields).lookup f.spelling = fields.lookup f.spelling :=
  lookup_ownFields (Or.inr (OpKind.declaresKey_iff.mpr ⟨f, hf, rfl⟩))

theorem opOf?_ownFields : opOf? (ownFields op fields) = opOf? fields := by
  rw [opOf?, opOf?, lookup_ownFields (Or.inl rfl)]

theorem lookup_normalFields (h : key ≠ PlanField.actions.spelling) :
    (normalFields fields).lookup key = fields.lookup key := by
  have hid : normalValue key = id := funext fun _ => if_neg h
  rw [normalFields_eq, lookup_mapValues, hid, Option.map_id, id]

theorem lookup_normalFields_of_ne {f : PlanField} (hf : f ≠ .actions) :
    (normalFields fields).lookup f.spelling = fields.lookup f.spelling :=
  lookup_normalFields (by revert hf; cases f <;> decide)

theorem lookup_actions_normalFields : (normalFields fields).lookup PlanField.actions.spelling =
    (fields.lookup PlanField.actions.spelling).map normalizeActions := by
  have hactions : normalValue PlanField.actions.spelling = normalizeActions :=
    funext fun _ => if_pos rfl
  rw [normalFields_eq, lookup_mapValues, hactions]

/-! A second time. -/

theorem ownFields_ownFields : ownFields op (ownFields op fields) = ownFields op fields := by
  rw [ownFields_eq, ownFields_eq, List.map_map]
  refine List.map_congr_left fun f _ => Prod.ext rfl ?_
  change ownValue op f.1 (ownValue op f.1 f.2) = ownValue op f.1 f.2
  unfold ownValue
  split <;> rfl

theorem normalizeAction_normalizeAction (action : Json) :
    normalizeAction (normalizeAction action) = normalizeAction action := by
  cases action with
  | obj fields =>
    cases hop : opOf? fields with
    | none => rw [normalizeAction_of_no_op hop, normalizeAction_of_no_op hop]
    | some op =>
      rw [normalizeAction_of_opOf? hop, normalizeAction_of_opOf? (opOf?_ownFields.trans hop),
        ownFields_ownFields]
  | _ => rfl

theorem normalizeActions_normalizeActions (actions : Json) :
    normalizeActions (normalizeActions actions) = normalizeActions actions := by
  cases actions with
  | arr items =>
    simp only [normalizeActions, List.map_map, Function.comp_def, normalizeAction_normalizeAction]
  | _ => rfl

theorem normalize_normalize (value : Json) : normalize (normalize value) = normalize value := by
  cases value with
  | obj fields =>
    rw [normalize_obj, normalize_obj, normalFields_eq, normalFields_eq, List.map_map]
    refine congrArg Json.obj (List.map_congr_left fun f _ => Prod.ext rfl ?_)
    change normalValue f.1 (normalValue f.1 f.2) = normalValue f.1 f.2
    unfold normalValue
    split
    · exact normalizeActions_normalizeActions f.2
    · rfl
  | _ => rfl

/-! Decoding. -/

/-- An action is decoded from the fields in its operation's contract alone. -/
theorem ofSlots?_congr {slots slots' : Slots} (h : ∀ f ∈ op.contract.fields, slots f = slots' f) :
    Action.ofSlots? slots op = Action.ofSlots? slots' op := by
  cases op <;>
    simp only [OpKind.contract, Contract.fields, List.cons_append, List.nil_append,
      List.append_nil, List.forall_mem_cons] at h <;>
    simp only [Action.ofSlots?, Slots.text?, Slots.optional?, h]

theorem ofJson?_normalizeAction (action : Json) :
    Action.ofJson? (normalizeAction action) = Action.ofJson? action := by
  cases action with
  | obj fields =>
    cases hop : opOf? fields with
    | none => rw [normalizeAction_of_no_op hop]
    | some op =>
      obtain ⟨v, hv, hop'⟩ := Option.bind_eq_some_iff.mp hop
      obtain ⟨name, hname, hop'⟩ := Option.bind_eq_some_iff.mp hop'
      have hslots : Action.ofSlots? (fun f => (ownFields op fields).lookup f.spelling) op =
          Action.ofSlots? (fun f => fields.lookup f.spelling) op :=
        ofSlots?_congr fun f hf => lookup_ownFields_of_mem hf
      rw [normalizeAction_of_opOf? hop]
      simp [Action.ofJson?, lookup_ownFields, hv, hname, hop', hslots]
  | _ => rfl

theorem list?_normalizeActions (actions : Json) :
    Json.list? Action.ofJson? (normalizeActions actions) =
      Json.list? Action.ofJson? actions := by
  cases actions with
  | arr items =>
    change (items.map normalizeAction).mapM Action.ofJson? = items.mapM Action.ofJson?
    rw [List.mapM_map]
    exact congrArg (items.mapM ·) (funext ofJson?_normalizeAction)
  | _ => rfl

/-- A plan is decoded to the same actions, or fails to be decoded, in normal form too. -/
theorem decode_normalize (value : Json) :
    ChangePlan.ofJson? (normalize value) = ChangePlan.ofJson? value := by
  cases value with
  | obj fields =>
    have hactions : Json.required? (normalFields fields) PlanField.actions.spelling
        (Json.list? Action.ofJson?) =
          Json.required? fields PlanField.actions.spelling (Json.list? Action.ofJson?) := by
      rw [Json.required?, Json.required?, lookup_actions_normalFields, Option.bind_map]
      exact congrArg _ (funext list?_normalizeActions)
    simp only [normalize_obj, ChangePlan.ofJson?, Json.record?, Option.bind_eq_bind,
      Option.bind_some, hactions]
    simp only [Json.required?, Json.defaulted?, lookup_normalFields_of_ne (f := .schemaVersion),
      lookup_normalFields_of_ne (f := .status), lookup_normalFields_of_ne (f := .summary),
      lookup_normalFields_of_ne (f := .questions), ne_eq, reduceCtorEq, not_false_eq_true]
  | _ => rfl

end Plan

end ArchChange
