import ArchChange.Command.Disk
import ArchChange.Plan.Catalog
import ArchChange.Plan.Extraction
import ArchChange.Text.Quoted
/-!
Why a command fails.
-/
namespace ArchChange.Command

/-- What a file is read as. -/
inductive FileRole where
  | plan
  | model
  | config
deriving DecidableEq, Repr

def FileRole.noun : FileRole → String
  | plan => "plan"
  | model => "model"
  | config => "config"

inductive Failure where
  | cannotRead (role : FileRole) (path : String) (fault : Fault)
  | notReadable (role : FileRole) (path : String)
  | noPlan (path : String) (reason : Plan.NoPlan)
  | unsupportedVersion (version : String)
  | invalidPlan (errors : Nat)
  /-- A report finds the plan valid and does not hold it. -/
  | missingPlan
  | notExecuted (message : String)
  | actionsFailed (count : Nat)
  | cannotCreateDirectory (path : String) (fault : Fault)
  | cannotWrite (path : String) (fault : Fault)
  | cannotReplace (path : String) (fault : Fault)
deriving DecidableEq, Repr

def Failure.message : Failure → String
  | cannotRead role path fault => s!"read {role.noun} {path}: {fault.message}"
  | notReadable role path => s!"parse {role.noun} JSON {path}: <json error>"
  | noPlan path reason => s!"no plan found in {path}: {reason.message}"
  | unsupportedVersion version =>
    s!"unsupported schema_version {Text.quoted version} (expected one of " ++
      ", ".intercalate SchemaVersion.names ++ ")"
  | invalidPlan errors => s!"plan failed validation ({errors} error(s))"
  | missingPlan => "validated plan missing from report"
  | notExecuted message => s!"plan not executed: {message}"
  | actionsFailed count => s!"{count} action(s) failed"
  | cannotCreateDirectory path fault => s!"create parent dir {path}: {fault.message}"
  | cannotWrite path fault => s!"write {path}: {fault.message}"
  | cannotReplace path fault =>
    s!"replace {path}: failed to persist temporary file: {fault.message}: {fault.message}"

end ArchChange.Command
