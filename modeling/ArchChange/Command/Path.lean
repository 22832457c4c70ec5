import ArchChange.Text.Blank
/-!
Paths, and the places that they lead to. A path is followed piece by piece, so what it finds
depends on each directory that it names, also where two dots lead back out of it.
-/
namespace ArchChange.Command

/-- A place in the file system: the names that lead to it from the working directory. Outside of
that the names start with two dots for each step up, or with a slash for the root. -/
abbrev Place := List String

namespace Place

def root : Place := ["/"]

/-- Whether a piece of a path stays where it is. -/
def isIdle (piece : String) : Bool :=
  piece == "" || piece == "."

/-- The place behind a piece; two dots lead back, though not beyond the root. -/
def follow (place : Place) (piece : String) : Place :=
  if isIdle piece then place
  else if piece = ".." then
    match place.getLast? with
    | none | some ".." => place ++ [piece]
    | some "/" => place
    | some _ => place.dropLast
  else place ++ [piece]

/-- Whether a place is the working directory or one around it. -/
def isAround (place : Place) : Bool :=
  place == root || place.all (· == "..")

end Place

/-- A path: how it is shown, and the pieces between its slashes. -/
structure Path where
  shown : String
  pieces : List String
deriving DecidableEq, Repr

namespace Path

def ofPieces (pieces : List String) : Path :=
  ⟨"/".intercalate pieces, pieces⟩

def ofText (text : String) : Path :=
  ⟨text, (Text.pieces '/' text.toList).map String.ofList⟩

/-- Whether a path starts at the root: nothing stands before its first slash. -/
def isAbsolute (p : Path) : Bool :=
  1 < p.pieces.length && p.pieces.head? == some ""

/-- Where a path starts. -/
def start (p : Path) : Place :=
  if p.isAbsolute then .root else []

/-- The places that a path leads past, by its names alone. -/
def places (p : Path) : List Place :=
  (List.range p.pieces.length).map fun n => (p.pieces.take (n + 1)).foldl Place.follow p.start

/-- The pieces without the slashes at the end. -/
def body (p : Path) : List String :=
  (p.pieces.reverse.dropWhile String.isEmpty).reverse

def endsInSlash (p : Path) : Bool :=
  p.pieces.getLast? == some ""

/-- The name at the end of a path; none if it ends in dots or is the root. -/
def name? (p : Path) : Option String :=
  p.body.getLast?.filter fun piece => piece != "." && piece != ".."

/-- The directory that a path names before its last name; none if that is where it starts. -/
def parent? (p : Path) : Option Path :=
  match ((p.pieces.reverse.dropWhile Place.isIdle).drop 1).dropWhile Place.isIdle with
  | [] => none
  | around => some (.ofPieces around.reverse)

/-- A path to a name inside a directory. -/
def child (p : Path) (name : String) : Path :=
  .ofPieces ((if p.endsInSlash then p.pieces.dropLast else p.pieces) ++ [name])

end Path

end ArchChange.Command
