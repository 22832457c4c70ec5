import ArchChange.Command.Path
/-!
The files that a command works on: contents at places. A directory is there as soon as something
is in it, or once it has been created; those around the working directory are always there.
-/
namespace ArchChange.Command

/-- Why the operating system refuses. -/
inductive Fault where
  | notFound
  | busy
  | fileExists
  | notADirectory
  | isADirectory
  | invalidArgument
  | nameTooLong
  /-- The path holds the character that ends texts for the operating system. -/
  | nulInPath
deriving DecidableEq, Repr

def Fault.message : Fault → String
  | notFound => "No such file or directory (os error 2)"
  | busy => "Device or resource busy (os error 16)"
  | fileExists => "File exists (os error 17)"
  | notADirectory => "Not a directory (os error 20)"
  | isADirectory => "Is a directory (os error 21)"
  | invalidArgument => "Invalid argument (os error 22)"
  | nameTooLong => "File name too long (os error 36)"
  | nulInPath => "file name contained an unexpected NUL byte"

/-- The most octets of a name. -/
def maxNameSize : Nat := 255

/-- The most octets of a path. -/
def maxPathSize : Nat := 4095

def isTooLong (name : String) : Bool :=
  maxNameSize < name.utf8ByteSize

/-- What is reported of a name that is not there. -/
def absence (name : String) : Fault :=
  if isTooLong name then .nameTooLong else .notFound

namespace Path

def hasNul (p : Path) : Bool :=
  p.shown.toList.contains '\x00'

/-- Why a path is refused before it is followed. -/
def refusal? (p : Path) : Option Fault :=
  if p.hasNul then some .nulInPath
  else if p.shown.isEmpty then some .notFound
  else if maxPathSize < p.shown.utf8ByteSize then some .nameTooLong
  else none

end Path

/-- Files with their contents, and directories that were created. -/
structure Disk where
  files : List (Place × List UInt8)
  directories : List Place
deriving DecidableEq

namespace Disk

def content? (d : Disk) (place : Place) : Option (List UInt8) :=
  d.files.lookup place

def isDirectory (d : Disk) (place : Place) : Bool :=
  place.isAround || (d.directories.any fun q => place.isPrefixOf q) ||
    (d.files.any fun f => place.isPrefixOf f.1 && f.1 != place)

/-- Goes on from a directory to the one behind a piece. -/
def enter (d : Disk) (place : Place) (piece : String) : Except Fault Place :=
  let next := place.follow piece
  if d.isDirectory next then .ok next
  else if (d.content? next).isSome then .error .notADirectory
  else .error (absence piece)

/-- Follows pieces of a path, each of them into a directory. -/
def enterAll (d : Disk) (p : Path) (pieces : List String) : Except Fault Place :=
  match p.refusal? with
  | some fault => .error fault
  | none => pieces.foldlM d.enter p.start

/-- The directory in which the last piece of a path stands; slashes behind that do not count. -/
def directoryOf (d : Disk) (p : Path) : Except Fault Place :=
  d.enterAll p p.body.dropLast

/-- The content of a file. What a slash follows must be a directory. -/
def read (d : Disk) (p : Path) : Except Fault (List UInt8) := do
  let directory ← d.enterAll p p.pieces.dropLast
  let last := p.pieces.getLastD ""
  let place := directory.follow last
  match d.content? place with
  | some content => return content
  | none => throw (if d.isDirectory place then .isADirectory else absence last)

def isFile (d : Disk) (p : Path) : Bool :=
  (d.read p).toOption.isSome

/-- Creates a directory unless it is there. -/
def createDirectory (d : Disk) (p : Path) : Except Fault Disk := do
  let directory ← d.directoryOf p
  match p.name? with
  | none => return d
  | some name =>
    let place := directory ++ [name]
    if d.isDirectory place then return d
    else if (d.content? place).isSome then throw .fileExists
    else if isTooLong name then throw .nameTooLong
    else return { d with directories := place :: d.directories }

/-- Creates the directory that pieces lead to, the last piece first. If it cannot be created for
want of the one before it, that one is created first. -/
def createAlong (d : Disk) : List String → Except Fault Disk
  | [] => .ok d
  | piece :: before =>
    let path := Path.ofPieces (piece :: before).reverse
    if Place.isIdle piece then d.createAlong before
    else
      match d.createDirectory path with
      | .error .notFound => do (← d.createAlong before).createDirectory path
      | result => result

/-- Creates a directory and those before it, as far as they are not there. -/
def createDirectories (d : Disk) (p : Path) : Except Fault Disk :=
  d.createAlong p.pieces.reverse

/-- Puts a file in place of what was there. -/
def put (d : Disk) (place : Place) (content : List UInt8) : Disk :=
  { d with files := (place, content) :: d.files.filter fun f => f.1 != place }

/-- Dropping the files of one place leaves what is found at another. -/
theorem lookup_filter_ne {place q : Place} (h : q ≠ place) (fs : List (Place × List UInt8)) :
    (fs.filter fun f => f.1 != place).lookup q = fs.lookup q := by
  induction fs with
  | nil => rfl
  | cons f fs ih =>
    obtain ⟨r, content⟩ := f
    by_cases hr : r = place
    · simp [hr, List.lookup_cons, ← ih, beq_eq_false_iff_ne.mpr h]
    · simp [hr, List.lookup_cons, ih]

/-- Putting a file changes what is found at its place and nowhere else. -/
theorem content?_put (d : Disk) (place q : Place) (content : List UInt8) :
    (d.put place content).content? q = if q = place then some content else d.content? q := by
  by_cases h : q = place
  · subst h
    simp [content?, put]
  · simp [content?, put, List.lookup_cons, beq_eq_false_iff_ne.mpr h, h, lookup_filter_ne h]

/-- Where writing to a path puts a file. -/
def writePlace (d : Disk) (p : Path) : Except Fault Place := do
  let directory ← d.directoryOf p
  match p.name? with
  | none => throw .isADirectory
  | some name =>
    if p.endsInSlash || d.isDirectory (directory ++ [name]) then throw .isADirectory
    else if isTooLong name then throw .nameTooLong
    else return directory ++ [name]

/-- Where a file goes that is moved to a path. -/
def movePlace (d : Disk) (p : Path) : Except Fault Place := do
  if p.hasNul then throw .invalidArgument
  let directory ← d.directoryOf p
  match p.name? with
  | none => throw .busy
  | some name =>
    if isTooLong name then throw .nameTooLong
    else if p.endsInSlash then throw .notADirectory
    else if d.isDirectory (directory ++ [name]) then throw .isADirectory
    else return directory ++ [name]

end Disk

end ArchChange.Command
