import ArchChange.Model.Basic
/-!
Which relationships have to go before an entity can. Relationships may be attached to
relationships, so a depth-first walk collects them; each stands after those it leads to.
-/
namespace ArchChange.Cascade

/-- A walk over relationships: the ids met and the ids left behind, in that order. -/
structure Walk where
  seen : List String
  done : List String
deriving Repr

/-- Visits an attached relationship unless the walk has met it before: first all that is attached
to it, then the relationship itself. -/
def visit (descend : String → Walk → Walk) (walk : Walk) (relationship : String) : Walk :=
  if walk.seen.contains relationship then walk
  else
    let walk := descend relationship { walk with seen := relationship :: walk.seen }
    { walk with done := walk.done ++ [relationship] }

/-- Visits all that is attached to `id`. Each level meets another relationship, so a depth as
great as the number of relationships suffices. -/
def walkFrom (attached : String → List String) : (depth : Nat) → String → Walk → Walk
  | 0, _, walk => walk
  | depth + 1, id, walk => (attached id).foldl (visit (walkFrom attached depth)) walk

end ArchChange.Cascade

namespace ArchChange.Model

/-- The relationships that have to be deleted before `id`, each after those attached to it. -/
def cascade (m : Model) (id : String) : List String :=
  (Cascade.walkFrom m.attached (m.relationships.length + 1) id ⟨[id], []⟩).done

end ArchChange.Model
