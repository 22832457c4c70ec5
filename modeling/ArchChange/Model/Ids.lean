import ArchChange.Model.Folder
/-!
The ids in a model and the allocation of new ones. A new id is a stem with the least number
above the last one that makes it an id not yet in use, as far as the counter of the model goes;
behind its last number the counter goes on from zero.
-/
namespace ArchChange.Model

/-- Every id in a model: of elements, relationships and views, of what is drawn on the views,
and of folders at any depth. -/
def ids (m : Model) : List String :=
  m.elements.map Element.id ++ m.relationships.map Relationship.id ++ m.views.map View.id ++
    m.views.flatMap (fun v => v.children.map Visual.id ++ v.connections.map Connection.id) ++
    Folder.idsIn m.folders

/-- The id with the given stem and number. -/
def numbered (stem : String) (n : Nat) : String :=
  s!"{stem}-{n}"

/-- How many numbers the counter of a model has: it is one of 64 bits. -/
def counterSize : Nat := 0x10000000000000000

/-- The first number from `n` on whose id is not among `used`. Among more candidates than used
ids there is one that is free, so `tries` as great as their number suffices. -/
def firstFree (used : List String) (stem : String) : (tries n : Nat) → Nat
  | 0, n => n
  | tries + 1, n => if used.contains (numbered stem n) then firstFree used stem tries (n + 1) else n

/-- The free number that a counter comes to which stands at `last`. Where none is left above, it
goes through all numbers from zero on. If more ids are in use than it has numbers, which no memory
holds, it might go round without end; here it then goes on above its last number. -/
def nextFree (used : List String) (stem : String) (last : Nat) : Nat :=
  let n := firstFree used stem used.length (last + 1)
  if n < counterSize then n else firstFree used stem used.length 0

/-- A new id and the model that remembers its number. -/
def allocate (m : Model) (stem : String) : String × Model :=
  let n := nextFree m.ids stem m.nextId
  (numbered stem n, { m with nextId := n })

end ArchChange.Model
