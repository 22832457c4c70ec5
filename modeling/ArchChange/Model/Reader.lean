import ArchChange.Model.Wire
import ArchChange.Text.Utf8
/-!
Models in text form. Only the fields of the model and of its records are read, and a text may
give each of them once; the values of other fields need only be well-formed. A property may be
given more than once, each time as a string, and the last one counts.
-/
namespace ArchChange.Model

/-- The parts of the text of a model. -/
inductive Part where
  | model
  | elements
  | element
  | relationships
  | relationship
  | views
  | view
  | visuals
  | visual
  | bounds
  | connections
  | connection
  | folders
  | folder
  | properties
  | property
  /-- A name from a closed set. -/
  | choice
  /-- A value that is read whole. -/
  | value
deriving DecidableEq, Repr

namespace Part

/-- The fields of a record in order, and what their values are. -/
def fields : Part → List (String × Part)
  | model => [("name", value), ("elements", elements), ("relationships", relationships),
      ("views", views), ("folders", folders), ("next_id", value)]
  | element => [("id", value), ("type", choice), ("name", value), ("documentation", value),
      ("properties", properties)]
  | relationship => [("id", value), ("type", choice), ("name", value), ("source", value),
      ("target", value), ("documentation", value), ("properties", properties)]
  | view => [("id", value), ("name", value), ("documentation", value), ("properties", properties),
      ("children", visuals), ("connections", connections)]
  | visual => [("id", value), ("entity_id", value), ("bounds", bounds)]
  | bounds => [("x", value), ("y", value), ("width", value), ("height", value)]
  | connection => [("id", value), ("relationship_id", value), ("source_visual", value),
      ("target_visual", value)]
  | folder => [("id", value), ("name", value), ("folders", folders), ("members", value)]
  | elements | relationships | views | visuals | connections | folders | properties | property
  | choice | value => []

/-- What the items of a list of records are. -/
def item? : Part → Option Part
  | elements => some element
  | relationships => some relationship
  | views => some view
  | visuals => some visual
  | connections => some connection
  | folders => some folder
  | _ => none

def isRecord (p : Part) : Bool :=
  !p.fields.isEmpty

end Part

/-- The fields of a model and of its records. -/
def selection : Selection Part where
  field part key :=
    if part.isRecord then part.fields.lookup key
    else if part = .properties then some .property
    else some .value
  item part index :=
    match part.item? with
    | some p => p
    | none => ((part.fields[index]?).map Prod.snd).getD .value
  distinct part := part.isRecord || part == .choice
  text part := part == .property

/-- The model that a text describes. -/
def ofText? (s : List Char) : Option Model :=
  (Json.ofTextSelecting? selection .model s).bind ofJson?

/-- The model that a text in UTF-8 describes. Faults are allowed where strings are not read. -/
def ofBytes? (bytes : List UInt8) : Option Model :=
  if bytes.contains 0 then none else ofText? (Text.decodeMarking Document.fault bytes)

end ArchChange.Model
