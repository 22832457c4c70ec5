import ArchChange.Command.Arguments
import ArchChange.Command.Config
import ArchChange.Command.Console
import ArchChange.Command.Summary
import ArchChange.Model.Reader
import ArchChange.Plan.Normal
import ArchChange.Plan.ProducerSchema
/-!
Running a command. A plan is found in its file and normalized; only a plan that is valid is
previewed or applied, and the model is written only if an action was applied.
-/
namespace ArchChange.Command

/-- What a command takes from its surroundings. -/
structure Environment where
  /-- The configuration file that a variable names. -/
  configVariable : Option String
  /-- Where the configuration file of the user is, if there is one. -/
  userConfig : Option Path

namespace Environment

/-- The configuration file: the one given, else the one of the variable, else that of the user
if it is there. -/
def configPath? (env : Environment) (disk : Disk) (given : Option String) : Option Path :=
  match given with
  | some text => some (.ofText text)
  | none =>
    match env.configVariable.filter fun text => !text.isEmpty with
    | some text => some (.ofText text)
    | none => env.userConfig.filter disk.isFile

/-- The configuration; the default one if there is no file. -/
def config (env : Environment) (disk : Disk) (given : Option String) : Except Failure Config :=
  match env.configPath? disk given with
  | some path => Config.load disk path
  | none => .ok .default

end Environment

/-- The normalized plan in a file. -/
def loadPlan (path : Path) : Task Json := do
  let content ← Task.read .plan path
  let extracted ← Task.ofExcept ((Plan.extract content).mapError (.noPlan path.shown))
  return Plan.normalize extracted.value

/-- The model in a file. -/
def loadModel (path : Path) : Task Model := do
  let content ← Task.read .model path
  match Model.ofBytes? content with
  | some model => return model
  | none => throw (.notReadable .model path.shown)

/-- Warnings of a plan whose version is not the one that is expected. -/
def versionWarnings (config : Config) (plan : Json) : List String :=
  match (plan.get? "schema_version").bind Json.text? with
  | none => []
  | some version =>
    if version = config.schemaVersion then []
    else [s!"warning: plan schema_version {version} differs from configured " ++
      config.schemaVersion]

/-- What validating, previewing and applying start from. -/
structure Inputs where
  config : Config
  plan : Json
  model : Model

def loadInputs (env : Environment) (config : Option String) (plan model : String) :
    Task Inputs := do
  let config ← Task.ofExcept (env.config (← get).disk config)
  let plan ← loadPlan (.ofText plan)
  Task.notify (versionWarnings config plan)
  return ⟨config, plan, ← loadModel (.ofText model)⟩

/-- The plan, if it is valid. -/
def acceptedPlan (inputs : Inputs) : Task ChangePlan := do
  let report := Validation.validate .bundled inputs.model none inputs.plan
  Task.notify (report.warnings.map fun i => s!"warning: {i.render}")
  if report.isValid then
    match report.plan with
    | some plan => return plan
    | none => throw .missingPlan
  else
    Task.notify (report.errors.map fun i => s!"error: {i.render}")
    throw (.invalidPlan report.errors.length)

/-- Shows a report; an invalid plan is a failure. -/
def showReport (report : Validation.Report) (json : Bool) : Task Unit := do
  Task.say (if json then [report.toJson.pretty] else report.lines)
  unless report.isValid do
    throw (.invalidPlan report.errors.length)

/-- Shows a result; a plan that was not run or that has failed actions is a failure. -/
def showResult (result : Execution.Result) (json : Bool) : Task Unit := do
  Task.say (if json then [result.toJson.pretty] else result.lines)
  unless result.ok do
    throw (match result.message with
      | some message => .notExecuted message
      | none => .actionsFailed result.failed)

/-- The options for applying a plan: those of the configuration, unless an argument switches them
off. -/
def applyOptions (config : Config) (continueOnError noAutoConnect : Bool) : Execution.Options :=
  let options := config.options .apply
  { options with
    stopOnError := if continueOnError then false else options.stopOnError
    autoConnect := if noAutoConnect then false else options.autoConnect }

/-- Writes a model if a run has applied an action to it. -/
def saveApplied (result : Execution.Result) (model : Model) (path : Path) (json : Bool) :
    Task Unit := do
  if 0 < result.applied then
    Task.save path model.toJson.pretty
    unless json do
      Task.notify [s!"wrote {path.shown}"]

def Invocation.task (env : Environment) : Invocation → Task Unit
  | .schema out => Task.emit Plan.producerSchema.pretty (out.map .ofText)
  | .config out => Task.emit Config.default.toJson.pretty (out.map .ofText)
  | .normalize plan out => do
    Task.emit (← loadPlan (.ofText plan)).pretty (out.map .ofText)
  | .validate plan model scope json given => do
    let inputs ← loadInputs env given plan model
    let scope := scope.map Validation.Scope.mk
    showReport (Validation.validate .bundled inputs.model scope inputs.plan) json
  | .preview plan model json given => do
    let inputs ← loadInputs env given plan model
    showResult (Execution.preview .bundled (← acceptedPlan inputs) inputs.model) json
  | .apply plan model out continueOnError noAutoConnect json given => do
    let inputs ← loadInputs env given plan model
    let options := applyOptions inputs.config continueOnError noAutoConnect
    let (result, changed) :=
      Execution.execute .bundled options (← acceptedPlan inputs) inputs.model
    saveApplied result changed (.ofText (out.getD model)) json
    showResult result json

/-- Runs a command on the files of a disk. -/
def Invocation.run (env : Environment) (disk : Disk) (invocation : Invocation) :
    Except Failure Unit × Console :=
  (invocation.task env).run (.start disk)

end ArchChange.Command
