import ArchChange.Command.Help
import ArchChange.Command.Run
/-!
The program: it takes the files that the arguments name from the file system, runs the command on
them, and writes back the files that the command has written.
-/
namespace ArchChange.Command

/-- The paths that a command may read or write. -/
def Invocation.paths : Invocation → List String
  | .schema out | .config out => out.toList
  | .normalize plan out => plan :: out.toList
  | .validate plan model _ _ given | .preview plan model _ given => plan :: model :: given.toList
  | .apply plan model out _ _ _ given => plan :: model :: out.toList ++ given.toList

def Place.spell (place : Place) : String :=
  "/".intercalate place

/-- Takes a file or directory into the disk if it is there. -/
def probe (disk : Disk) (place : Place) : IO Disk := do
  if disk.isDirectory place || (disk.content? place).isSome then return disk
  try
    return disk.put place (← IO.FS.readBinFile place.spell).toList
  catch
    | .inappropriateType .. => return { disk with directories := place :: disk.directories }
    | _ => return disk

/-- Writes a file next to its place and then moves it there. -/
def writeBack (place : Place) (content : List UInt8) : IO Unit := do
  if 1 < place.length then IO.FS.createDirAll (Place.spell place.dropLast)
  IO.FS.writeBinFile (place.spell ++ ".new") ⟨content.toArray⟩
  IO.FS.rename (place.spell ++ ".new") place.spell

/-- The directory for the configuration of the user. -/
def userDirectory : IO (Option Path) := do
  let given := (← IO.getEnv "XDG_CONFIG_HOME").map Path.ofText
  match given.filter Path.isAbsolute, ← IO.getEnv "HOME" with
  | some directory, _ => return some directory
  | none, some home => return some ((Path.ofText home).child ".config")
  | none, none => return none

def environment : IO Environment := do
  let directory ← userDirectory
  return {
    configVariable := ← IO.getEnv "ARCHPLAN_CONFIG"
    userConfig := directory.map fun d => (d.child "archplan").child "config.json" }

/-- Runs a command on the file system. -/
def perform (invocation : Invocation) : IO UInt32 := do
  let env ← environment
  let paths := (invocation.paths ++ env.configVariable.toList).map Path.ofText ++
    env.userConfig.toList
  let disk ← (paths.flatMap Path.places).foldlM probe ⟨[], []⟩
  let (result, console) := invocation.run env disk
  for place in console.written do
    writeBack place ((console.disk.content? place).getD [])
  IO.print (Console.text console.output)
  IO.eprint (Console.text console.notices)
  match result with
  | .ok _ => return 0
  | .error failure =>
    IO.eprintln s!"Error: {failure.message}"
    return 1

end ArchChange.Command

open ArchChange.Command in
def main (args : List String) : IO UInt32 := do
  match Invocation.ofArguments args with
  | .ok invocation => perform invocation
  | .error usage =>
    if usage.isRequest then
      IO.println usage.message
      return 0
    else
      IO.eprintln usage.message
      return 2
