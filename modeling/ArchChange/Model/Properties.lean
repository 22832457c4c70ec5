import ArchChange.Keyed
/-!
The properties of an entity: texts under keys, kept in ascending order of the keys.
-/
namespace ArchChange

structure Properties where
  entries : List (String × String)
  ascending : Keyed.Ascending entries
deriving DecidableEq

namespace Properties

def empty : Properties :=
  ⟨[], List.Pairwise.nil⟩

instance : Inhabited Properties := ⟨empty⟩

def isEmpty (p : Properties) : Bool :=
  p.entries.isEmpty

def get? (p : Properties) (key : String) : Option String :=
  p.entries.lookup key

def insert (p : Properties) (key value : String) : Properties :=
  ⟨Keyed.insert key value p.entries, Keyed.ascending_insert p.ascending key value⟩

def erase (p : Properties) (key : String) : Properties :=
  ⟨Keyed.erase key p.entries, Keyed.ascending_erase p.ascending key⟩

/-- The properties with the given entries; of two values for one key the later stays. -/
def ofList (entries : List (String × String)) : Properties :=
  ⟨Keyed.ofList entries, Keyed.ascending_ofList entries⟩

@[simp] theorem get?_insert (p : Properties) (k l v : String) :
    (p.insert k v).get? l = if l = k then some v else p.get? l :=
  Keyed.lookup_insert k l v p.entries

@[simp] theorem get?_erase (p : Properties) (k l : String) :
    (p.erase k).get? l = if l = k then none else p.get? l :=
  Keyed.lookup_erase k l p.entries

end Properties

end ArchChange
