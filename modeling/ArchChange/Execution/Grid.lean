import ArchChange.Model.Basic
/-!
Where entities go on a view when a plan gives no coordinates: on a grid with four columns, filled
row by row.
-/
namespace ArchChange.Execution

namespace Grid

def columns : Nat := 4
def origin : Int := 30
def stepX : Int := 160
def stepY : Int := 80
def defaultWidth : Int := 120
def defaultHeight : Int := 55

/-- The top left corner of a slot. -/
def position (slot : Nat) : Int × Int :=
  (origin + (slot % columns : Nat) * stepX, origin + (slot / columns : Nat) * stepY)

end Grid

/-- How a place on a view was chosen. -/
inductive Placement where
  | explicit
  | auto (slot : Nat)
deriving DecidableEq, Repr

/-- The coordinates and size that a plan asks for, as far as it gives them. -/
structure PlaceRequest where
  x : Option Int
  y : Option Int
  width : Option Int
  height : Option Int
deriving DecidableEq, Repr

/-- The next free slot of each view, latest first; a view without an entry starts at slot 0. -/
structure Grid where
  slots : List (String × Nat)
deriving DecidableEq, Repr

namespace Grid

def empty : Grid := ⟨[]⟩

def next (g : Grid) (view : String) : Nat :=
  (g.slots.lookup view).getD 0

/-- The bounds for the next placement on a view. The slot is taken only when both coordinates
are not given. -/
def boundsFor (g : Grid) (view : String) (r : PlaceRequest) : Bounds × Placement :=
  let width := r.width.getD defaultWidth
  let height := r.height.getD defaultHeight
  match r.x, r.y with
  | some x, some y => (⟨x, y, width, height⟩, .explicit)
  | _, _ =>
    let slot := g.next view
    let (x, y) := position slot
    (⟨x, y, width, height⟩, .auto slot)

/-- Records a placement that was made; only one on a slot moves the grid on. -/
def commit (g : Grid) (view : String) : Placement → Grid
  | .explicit => g
  | .auto slot => ⟨(view, slot + 1) :: g.slots⟩

@[simp] theorem next_empty (view : String) : empty.next view = 0 := rfl

@[simp] theorem commit_explicit (g : Grid) (view : String) : g.commit view .explicit = g := rfl

theorem next_commit_auto (g : Grid) (view other : String) (slot : Nat) :
    (g.commit view (.auto slot)).next other = if other = view then slot + 1 else g.next other := by
  grind [next, commit]

end Grid

end ArchChange.Execution
