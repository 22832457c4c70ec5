import ArchChange.Execution.Description
import ArchChange.Execution.Error
import ArchChange.Json.Basic
import ArchChange.Plan.Catalog
/-!
The result of a run: an outcome for each action, and what happened as a whole.
-/
namespace ArchChange.Execution

/-- Whether a run describes the actions or makes them. -/
inductive Mode where
  | preview
  | apply
deriving DecidableEq, Repr

def Mode.name : Mode → String
  | preview => "preview"
  | apply => "apply"

/-- What became of an action. -/
inductive Verdict where
  | applied (description : Description) (createdId : Option String)
  | failed (error : ActionError)
  /-- Not tried, because an earlier action failed. -/
  | skipped
deriving DecidableEq, Repr

structure Outcome where
  index : Nat
  op : OpKind
  verdict : Verdict
deriving DecidableEq, Repr

namespace Verdict

def status : Verdict → String
  | applied .. => "applied"
  | failed _ => "failed"
  | skipped => "skipped"

def description : Verdict → String
  | applied description _ => description.render
  | failed _ => ""
  | skipped => "skipped after an earlier failure"

def error? : Verdict → Option String
  | failed error => some error.message
  | _ => none

def createdId? : Verdict → Option String
  | applied _ id => id
  | _ => none

def isFailed : Verdict → Bool
  | failed _ => true
  | _ => false

end Verdict

structure Result where
  ok : Bool
  mode : Mode
  applied : Nat
  failed : Nat
  skipped : Nat
  outcomes : List Outcome
  /-- The connections drawn after the actions. -/
  autoConnected : Nat
  /-- The views whose connections could not all be drawn. -/
  connectFailures : List ConnectFailure
  /-- Why a plan was not run. -/
  message : Option String
  questions : List String
deriving DecidableEq, Repr

/-- A field that is left out without a text. -/
def textField (name : String) : Option String → List (String × Json)
  | none => []
  | some text => [(name, .str text)]

def Outcome.toJson (o : Outcome) : Json :=
  .obj ([("index", .nat o.index), ("op", .str o.op.name), ("status", .str o.verdict.status),
      ("description", .str o.verdict.description)] ++
    textField "error" o.verdict.error? ++ textField "created_id" o.verdict.createdId?)

/-- Failures in one line; none without failures. -/
def connectError? (failures : List ConnectFailure) : Option String :=
  match failures with
  | [] => none
  | failures => some ("; ".intercalate (failures.map ConnectFailure.message))

namespace Result

/-- The result of a run that has not begun. -/
def start (mode : Mode) : Result :=
  ⟨true, mode, 0, 0, 0, [], 0, [], none, []⟩

/-- Adds an outcome and counts it. -/
def record (r : Result) (o : Outcome) : Result :=
  let r := match o.verdict with
    | .applied .. => { r with applied := r.applied + 1 }
    | .failed _ => { r with failed := r.failed + 1 }
    | .skipped => { r with skipped := r.skipped + 1 }
  { r with ok := r.failed == 0, outcomes := r.outcomes ++ [o] }

def connectError? (r : Result) : Option String :=
  Execution.connectError? r.connectFailures

def toJson (r : Result) : Json :=
  .obj ([("ok", .bool r.ok), ("mode", .str r.mode.name), ("applied", .nat r.applied),
      ("failed", .nat r.failed), ("skipped", .nat r.skipped),
      ("outcomes", .arr (r.outcomes.map Outcome.toJson)),
      ("auto_connected", .nat r.autoConnected)] ++
    textField "auto_connect_error" r.connectError? ++ textField "message" r.message ++
    if r.questions.isEmpty then [] else [("questions", .strings r.questions)])

end Result

end ArchChange.Execution
