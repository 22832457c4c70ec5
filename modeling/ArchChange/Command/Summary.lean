import ArchChange.Execution.Execute
import ArchChange.Validation.Report
/-!
Reports and results in lines for a reader.
-/
namespace ArchChange

namespace Validation.Report

/-- What became of a phase. -/
def phaseLine (phase : Phase) (valid : Bool) : String :=
  s!"{phase.name}: " ++ if valid then "ok" else "failed"

/-- What became of the phases, then every error and every warning. -/
def lines (r : Report) : List String :=
  [phaseLine .schema r.schemaValid,
    if r.schemaValid then phaseLine .semantic r.semanticValid else "semantic: skipped"] ++
    r.errors.map (fun i => s!"error: {i.render}") ++
    r.warnings.map (fun i => s!"warning: {i.render}")

end Validation.Report

namespace Execution

def Verdict.marker : Verdict → String
  | applied .. => "+"
  | failed _ => "!"
  | skipped => "-"

/-- A failed action by its operation and error, any other by its description. -/
def Outcome.line (o : Outcome) : String :=
  s!"{o.verdict.marker} [{o.index}] " ++
    match o.verdict.error? with
    | some error => s!"{o.op.name}: {error}"
    | none => o.verdict.description

namespace Result

def countLine (r : Result) : String :=
  s!"applied={r.applied} failed={r.failed} skipped={r.skipped} auto_connected={r.autoConnected}"

/-- Why the plan was not run with its questions, or else every outcome and the counts. -/
def lines (r : Result) : List String :=
  match r.message with
  | some message => message :: r.questions.map fun q => s!"  ? {q}"
  | none =>
    r.outcomes.map Outcome.line ++ [r.countLine] ++
      (r.connectError?.map fun error => s!"auto-connect failed: {error}").toList

end Result

end Execution

end ArchChange
