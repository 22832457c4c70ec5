import ArchChange.Command.Failure
import ArchChange.Json.Printer
import ArchChange.Text.Utf8
/-!
What a command works with: files to read and write, and lines for whoever started it. A command
that fails keeps the lines and files that it has written before.
-/
namespace ArchChange.Command

structure Console where
  disk : Disk
  /-- Where files were written, in that order. -/
  written : List Place
  /-- The lines of output. -/
  output : List String
  /-- The lines beside the output: notices and warnings. -/
  notices : List String

namespace Console

/-- A console with nothing written on it. -/
def start (disk : Disk) : Console :=
  ⟨disk, [], [], []⟩

/-- Lines as a text; each of them ends with a line feed. -/
def text (lines : List String) : String :=
  String.join (lines.map fun line => line ++ "\n")

end Console

/-- A part of a command: it uses the console, and may fail. -/
abbrev Task (α : Type) := ExceptT Failure (StateM Console) α

namespace Task

/-- Writes lines of output. -/
def say (lines : List String) : Task Unit :=
  modify fun c => { c with output := c.output ++ lines }

/-- Writes lines beside the output. -/
def notify (lines : List String) : Task Unit :=
  modify fun c => { c with notices := c.notices ++ lines }

/-- Goes on with a value unless there is a failure. -/
def ofExcept {α : Type} (result : Except Failure α) : Task α :=
  ExceptT.mk (pure result)

/-- Changes the disk unless that fails. -/
def change (operation : Disk → Except Fault Disk) (wrap : Fault → Failure) : Task Unit := do
  let disk ← ofExcept ((operation (← get).disk).mapError wrap)
  modify fun c => { c with disk }

def read (role : FileRole) (path : Path) : Task (List UInt8) := do
  ofExcept (((← get).disk.read path).mapError (.cannotRead role path.shown))

/-- Creates the directory of a path. -/
def prepare (path : Path) : Task Unit :=
  match path.parent? with
  | none => return
  | some parent => change (·.createDirectories parent) (.cannotCreateDirectory parent.shown)

/-- Puts a text in a file at the place that is found for it, unless there is none. -/
def put (locate : Disk → Except Fault Place) (wrap : Fault → Failure) (text : String) :
    Task Unit := do
  let place ← ofExcept ((locate (← get).disk).mapError wrap)
  modify fun c =>
    { c with disk := c.disk.put place (Text.encode text), written := c.written ++ [place] }

/-- Writes a text as output or, if there is a path, to a file. -/
def emit (text : String) : Option Path → Task Unit
  | none => say [text]
  | some path => do
    prepare path
    put (·.writePlace path) (.cannotWrite path.shown) text
    notify [s!"wrote {path.shown}"]

/-- Writes a text next to the place of a file and then moves it there. A file that is already
there is kept if that fails. -/
def save (path : Path) (text : String) : Task Unit := do
  prepare path
  put (·.movePlace path) (.cannotReplace path.shown) text

end Task

end ArchChange.Command
