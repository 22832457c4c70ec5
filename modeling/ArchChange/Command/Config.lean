import ArchChange.Command.Failure
import ArchChange.Execution.Execute
import ArchChange.Json.Record
/-!
The configuration: how plans are run unless an argument says otherwise, and the plan version that
is expected. Every field has a default; unknown fields are refused.
-/
namespace ArchChange.Command

structure Config where
  /-- Plans of another version are warned about. -/
  schemaVersion : String
  stopOnError : Bool
  autoConnect : Bool
deriving DecidableEq, Repr

namespace Config

def default : Config :=
  ⟨SchemaVersion.v2.name, true, true⟩

def options (c : Config) (mode : Execution.Mode) : Execution.Options :=
  ⟨mode, c.stopOnError, c.autoConnect⟩

def fieldNames : List String :=
  ["schema_version", "stop_on_error", "auto_connect"]

def toJson (c : Config) : Json :=
  .obj [("schema_version", .str c.schemaVersion), ("stop_on_error", .bool c.stopOnError),
    ("auto_connect", .bool c.autoConnect)]

def ofJson? (v : Json) : Option Config := do
  let fields ← v.record? fieldNames
  if fields.any fun f => !fieldNames.contains f.1 then none
  else
    some {
      schemaVersion := ← Json.defaulted? fields "schema_version" default.schemaVersion Json.text?
      stopOnError := ← Json.defaulted? fields "stop_on_error" default.stopOnError Json.bool?
      autoConnect := ← Json.defaulted? fields "auto_connect" default.autoConnect Json.bool?
    }

/-- Reads all of a configuration and refuses a repeated key at the top. -/
def selection : Selection Bool where
  field _ _ := some false
  item _ _ := false
  distinct top := top
  text _ := false

/-- The configuration that a text describes. -/
def ofText? (s : List Char) : Option Config :=
  (Json.ofTextSelecting? selection true s).bind ofJson?

/-- The configuration, if its version is a known one. -/
def check (c : Config) : Except Failure Config :=
  if SchemaVersion.names.contains c.schemaVersion then .ok c
  else .error (.unsupportedVersion c.schemaVersion)

/-- The configuration in a file. -/
def load (disk : Disk) (path : Path) : Except Failure Config :=
  match disk.read path with
  | .error fault => .error (.cannotRead .config path.shown fault)
  | .ok content =>
    match (Text.decode? content).bind ofText? with
    | none => .error (.notReadable .config path.shown)
    | some config => config.check

end Config

end ArchChange.Command
