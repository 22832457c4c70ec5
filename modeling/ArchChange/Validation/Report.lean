import ArchChange.Validation.Schema
import ArchChange.Validation.Semantic
/-!
Validation of a plan in two phases. It always yields a report that holds every issue found; the
semantic phase runs only on plans without schema errors.
-/
namespace ArchChange.Validation

structure Report where
  schemaValid : Bool
  semanticValid : Bool
  errors : List Issue
  warnings : List Issue
  /-- The decoded plan, if the schema phase found no error. -/
  plan : Option ChangePlan

namespace Report

def isValid (r : Report) : Bool :=
  r.schemaValid && r.semanticValid

def toJson (r : Report) : Json :=
  .obj [
    ("schema_valid", .bool r.schemaValid),
    ("semantic_valid", .bool r.semanticValid),
    ("errors", .arr (r.errors.map Issue.toJson)),
    ("warnings", .arr (r.warnings.map Issue.toJson))]

end Report

/-- Validates the JSON value of a plan against a store. -/
def validate {σ : Type} [EntityLookup σ] (oracle : Oracle) (store : σ) (scope : Option Scope)
    (value : Json) : Report :=
  let schema := checkSchema oracle value
  match schema.plan with
  | none => ⟨false, false, schema.errors, schema.warnings, none⟩
  | some plan =>
    let semantic := (checkActions oracle store scope 0 .empty plan.actions).1
    ⟨true, semantic.errors.isEmpty, schema.errors ++ semantic.errors,
      schema.warnings ++ semantic.warnings, some plan⟩

end ArchChange.Validation
