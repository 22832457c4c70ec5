import ArchChange.Json.Basic
import ArchChange.Plan.Catalog
/-!
Plans reduced to the fields that count. Producers fill in every field of every action;
normalizing sets those that an action's operation does not use to null.
-/
namespace ArchChange.Plan

/-- The operation of an action, if it names a known one. -/
def opOf? (fields : List (String × Json)) : Option OpKind :=
  (fields.lookup "op").bind fun v => v.text?.bind OpKind.ofName?

/-- An action without the fields that its operation does not use. An action without a known
operation stays as it is. -/
def normalizeAction : Json → Json
  | .obj fields =>
    match opOf? fields with
    | none => .obj fields
    | some op =>
      .obj (fields.map fun f => if f.1 = "op" ∨ op.declaresKey f.1 then f else (f.1, .null))
  | v => v

/-- The value of the plan's actions with each action normalized. -/
def normalizeActions : Json → Json
  | .arr actions => .arr (actions.map normalizeAction)
  | v => v

/-- A plan with each of its actions normalized. -/
def normalize : Json → Json
  | .obj fields =>
    .obj (fields.map fun f =>
      if f.1 = PlanField.actions.spelling then (f.1, normalizeActions f.2) else f)
  | v => v

end ArchChange.Plan
