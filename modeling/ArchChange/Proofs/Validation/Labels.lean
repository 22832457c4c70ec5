import ArchChange.Proofs.Json.Record
import ArchChange.Validation.Report
/-!
The types in a plan that passed the schema phase are types that the oracle knows: the phase looks
them up in the same fields that the actions are decoded from.
-/
namespace ArchChange.Validation

/-- The oracle knows the type that an action gives to what it creates. -/
def LabelKnown (oracle : Oracle) : Action → Prop
  | .createElement label _ _ _ => (oracle.elementType? label).isSome
  | .createRelationship label _ _ _ => (oracle.relationshipType? label).isSome
  | _ => True

variable {oracle : Oracle}

theorem known_of_labelProblem? {text : String} {known : String → Bool}
    {unknown : String → SchemaProblem} (h : labelProblem? text known unknown = none) :
    known text := by
  unfold labelProblem? at h
  split at h
  · cases h
  · split at h
    · next hk => exact hk
    · cases h

theorem eq_str_of_text? {value : Json} {text : String} (h : value.text? = some text) :
    value = .str text := by
  cases value with
  | str s =>
    cases h
    rfl
  | _ => cases h

/-- A text in a field of an action without issues has no problem of its own. -/
theorem valueProblem?_of_text {index : Nat} {op : OpKind} {fields : List (String × Json)}
    (h : valueIssues oracle index op fields = []) {f : Field} (hf : f ∈ op.contract.fields)
    {text : String} (ht : Slots.text? (fun f => fields.lookup f.spelling) f = some text) :
    valueProblem? oracle f.kind (.str text) = none := by
  obtain ⟨value, hvalue, htext⟩ := Option.bind_eq_some_iff.mp ht
  have hpresent : Json.present? fields f.spelling = some (.str text) := by
    have hlookup : fields.lookup f.spelling = some (.str text) :=
      eq_str_of_text? htext ▸ hvalue
    rw [Json.present?, hlookup]
    rfl
  have hnone := List.filterMap_eq_nil_iff.mp h f hf
  rw [hpresent, Option.bind_some, Option.map_eq_none_iff] at hnone
  exact hnone

theorem op_ofSlots? {slots : Slots} {op : OpKind} {action : Action}
    (h : Action.ofSlots? slots op = some action) : action.op = op := by
  cases op <;>
    simp only [Action.ofSlots?, Option.bind_eq_bind, Option.bind_eq_some_iff] at h <;>
    grind [Action.op]

theorem labelKnown_of_ofSlots? {index : Nat} {op : OpKind} {fields : List (String × Json)}
    (h : valueIssues oracle index op fields = []) {action : Action}
    (ha : Action.ofSlots? (fun f => fields.lookup f.spelling) op = some action) :
    LabelKnown oracle action := by
  cases action with
  | createElement label name ref text =>
    obtain rfl : OpKind.createElement = op := op_ofSlots? ha
    have hlabel : Slots.text? (fun f => fields.lookup f.spelling) .type = some label := by
      simp only [Action.ofSlots?, Option.bind_eq_bind, Option.bind_eq_some_iff] at ha
      grind
    have hproblem : labelProblem? label (fun s => (oracle.elementType? s).isSome)
        .unknownElementType = none := valueProblem?_of_text h (by decide) hlabel
    exact known_of_labelProblem? hproblem
  | createRelationship label source target name =>
    obtain rfl : OpKind.createRelationship = op := op_ofSlots? ha
    have hlabel : Slots.text? (fun f => fields.lookup f.spelling) .relationshipType =
        some label := by
      simp only [Action.ofSlots?, Option.bind_eq_bind, Option.bind_eq_some_iff] at ha
      grind
    have hproblem : labelProblem? label (fun s => (oracle.relationshipType? s).isSome)
        .unknownRelationshipType = none := valueProblem?_of_text h (by decide) hlabel
    exact known_of_labelProblem? hproblem
  | _ => trivial

/-- An action without issues is decoded to one whose type is known. -/
theorem labelKnown_of_actionIssues {index : Nat} {value : Json}
    (h : actionIssues oracle index value = []) {action : Action}
    (ha : Action.ofJson? value = some action) : LabelKnown oracle action := by
  cases value with
  | obj fields =>
    obtain ⟨v, hv, hrest⟩ := Option.bind_eq_some_iff.mp ha
    obtain ⟨name, hname, hrest⟩ := Option.bind_eq_some_iff.mp hrest
    obtain ⟨op, hop, hslots⟩ := Option.bind_eq_some_iff.mp hrest
    rw [eq_str_of_text? hname] at hv
    simp only [actionIssues, hv, hop, fieldIssues, List.append_eq_nil_iff] at h
    exact labelKnown_of_ofSlots? h.1.2 hslots
  | _ => simp [actionIssues] at h

theorem actionIssues_of_mem {index : Nat} {values : List Json}
    (h : actionListIssues oracle index values = []) {value : Json} (hv : value ∈ values) :
    ∃ i, actionIssues oracle i value = [] := by
  induction values generalizing index with
  | nil => cases hv
  | cons v values ih =>
    obtain ⟨hhead, htail⟩ := List.append_eq_nil_iff.mp h
    rcases List.mem_cons.mp hv with rfl | hv
    · exact ⟨index, hhead⟩
    · exact ih htail hv

/-- The actions of a plan are decoded from the items of its field for them. -/
theorem actions_of_ofJson? {fields : List (String × Json)} {plan : ChangePlan}
    (h : ChangePlan.ofJson? (.obj fields) = some plan) :
    ∃ items, fields.lookup PlanField.actions.spelling = some (.arr items) ∧
      items.mapM Action.ofJson? = some plan.actions := by
  obtain ⟨version, -, h⟩ := Option.bind_eq_some_iff.mp h
  obtain ⟨status, -, h⟩ := Option.bind_eq_some_iff.mp h
  obtain ⟨summary, -, h⟩ := Option.bind_eq_some_iff.mp h
  obtain ⟨questions, -, h⟩ := Option.bind_eq_some_iff.mp h
  obtain ⟨actions, hactions, h⟩ := Option.bind_eq_some_iff.mp h
  cases h
  obtain ⟨v, hv, hlist⟩ := Option.bind_eq_some_iff.mp hactions
  obtain ⟨items, hitems, hmap⟩ := Option.bind_eq_some_iff.mp hlist
  cases v with
  | arr values =>
    cases hitems
    exact ⟨items, hv, hmap⟩
  | _ => cases hitems

/-- Each type in a plan that passed the schema phase is known. -/
theorem labelKnown_of_checkSchema {value : Json} {plan : ChangePlan}
    (h : (checkSchema oracle value).plan = some plan) :
    ∀ action ∈ plan.actions, LabelKnown oracle action := by
  intro action haction
  cases value with
  | obj fields =>
    unfold checkSchema at h
    cases hissues : planIssues oracle fields with
    | cons issue issues => simp [hissues] at h
    | nil =>
      cases hdecode : ChangePlan.ofJson? (.obj fields) with
      | none => simp [hissues, hdecode] at h
      | some decoded =>
        simp only [hissues, hdecode, Option.some.injEq] at h
        subst h
        obtain ⟨items, hitems, hmap⟩ := actions_of_ofJson? hdecode
        obtain ⟨item, hitem, hof⟩ := mem_of_mapM hmap haction
        simp only [planIssues, List.append_eq_nil_iff, actionsIssues, hitems] at hissues
        obtain ⟨index, hindex⟩ := actionIssues_of_mem hissues.2.2 hitem
        exact labelKnown_of_actionIssues hindex hof
  | _ => simp [checkSchema] at h

end ArchChange.Validation
