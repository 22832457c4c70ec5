import ArchChange.Model.Reader
import ArchChange.Proofs.Json.Selecting
import ArchChange.Proofs.Model.RoundTrip
import ArchChange.Proofs.Text.Utf8
/-!
Models as texts. What is printed of a model is read as the model again, unless its folders are
nested more deeply than the reader goes.
-/
namespace ArchChange

open Json (IsText Lists Holds Gives Fits FitsItems FitsFields sorted sortedFields)

theorem keys_optionalText (name text : String) :
    ((optionalText name text).map Prod.fst).Sublist [name] := by
  unfold optionalText
  split
  · exact List.nil_sublist _
  · exact List.Sublist.refl _

namespace Model

/-! The fields of records are all selected. -/

theorem Part.nodup_keys (part : Part) : (part.fields.map Prod.fst).Nodup := by
  cases part <;> decide

theorem selection_field {part p : Part} {key : String} (h : part.fields.lookup key = some p) :
    selection.field part key = some p ∧ selection.text p = false := by
  have hdeclared : ∀ f ∈ part.fields, part.isRecord = true ∧ selection.text f.2 = false := by
    cases part <;> decide
  obtain ⟨hrecord, htext⟩ := hdeclared _ (mem_of_lookup h)
  exact ⟨(if_pos hrecord).trans h, htext⟩

variable {depth : Nat} {part : Part}

theorem fitsFields_cons {p : Part} {key : String} {v : Json} {fields : List (String × Json)}
    (hp : part.fields.lookup key = some p) (hv : v.Fits selection depth p)
    (hfields : FitsFields selection depth part fields) :
    FitsFields selection depth part ((key, v) :: fields) := by
  obtain ⟨hfield, htext⟩ := selection_field hp
  exact ⟨⟨p, hfield, by simp [htext], hv⟩, hfields⟩

theorem fitsFields_append {fields fields' : List (String × Json)}
    (h : FitsFields selection depth part fields) (h' : FitsFields selection depth part fields') :
    FitsFields selection depth part (fields ++ fields') := by
  induction fields with
  | nil => exact h'
  | cons f fields ih =>
    obtain ⟨k, v⟩ := f
    exact ⟨h.1, ih h.2⟩

theorem fitsFields_optionalText {name text : String} {p : Part}
    (hp : part.fields.lookup name = some p) :
    FitsFields selection depth part (optionalText name text) := by
  unfold optionalText
  split
  · trivial
  · exact fitsFields_cons hp trivial trivial

theorem fits_record {fields : List (String × Json)}
    (hkeys : (fields.map Prod.fst).Sublist (part.fields.map Prod.fst))
    (hfields : FitsFields selection depth part fields) :
    (Json.obj fields).Fits selection (depth + 1) part :=
  ⟨part.nodup_keys.sublist hkeys, hfields⟩

theorem fitsItems_map {α : Type} {write : α → Json} {p : Part}
    (hitem : ∀ index, selection.item part index = p) {as : List α}
    (h : ∀ a ∈ as, (write a).Fits selection depth p) (index : Nat) :
    FitsItems selection depth part index (as.map write) := by
  induction as generalizing index with
  | nil => trivial
  | cons a as ih =>
    obtain ⟨ha, has⟩ := List.forall_mem_cons.mp h
    exact ⟨hitem index ▸ ha, ih has (index + 1)⟩

end Model

namespace Properties

theorem keys_field (p : Properties) : (p.field.map Prod.fst).Sublist ["properties"] := by
  unfold field
  split
  · exact List.nil_sublist _
  · exact List.Sublist.refl _

theorem sorted_entries (p : Properties) :
    (Json.obj (p.entries.map fun e => (e.1, .str e.2))).sorted =
      .obj (p.entries.map fun e => (e.1, .str e.2)) := by
  have hascending : Keyed.Ascending (p.entries.map fun e => (e.1, Json.str e.2)) :=
    List.pairwise_map.mpr p.ascending
  have hsorted : sortedFields (p.entries.map fun e => (e.1, Json.str e.2)) =
      p.entries.map fun e => (e.1, .str e.2) := by
    induction p.entries with
    | nil => rfl
    | cons e entries ih => rw [List.map_cons, sortedFields, ih]; rfl
  rw [Json.sorted, Json.object, hsorted, Keyed.ofList_eq_of_perm hascending (.refl _)]

theorem fits_entries (p : Properties) (depth : Nat) :
    (Json.obj (p.entries.map fun e => (e.1, .str e.2))).Fits Model.selection (depth + 1)
      .properties := by
  refine ⟨?_, ?_⟩
  · rw [List.map_map]
    exact p.nodup_keys
  · induction p.entries with
    | nil => trivial
    | cons e entries ih => exact ⟨⟨.property, rfl, fun _ => rfl, trivial⟩, ih⟩

theorem fitsFields_field {part : Model.Part}
    (hp : part.fields.lookup "properties" = some .properties) (p : Properties) (depth : Nat) :
    FitsFields Model.selection (depth + 1) part p.field := by
  unfold field
  split
  · trivial
  · exact Model.fitsFields_cons hp (p.fits_entries depth) trivial

end Properties

/-! Sorting the keys of a written record does not change what it spells. -/

section

variable {fields : List (String × Json)} (hkeys : (fields.map Prod.fst).Nodup) {name : String}

include hkeys

theorem gives_sorted_text {text : String}
    (h : fields.lookup name = if text ≠ "" then some (.str text) else none) :
    Gives (Keyed.ofList (sortedFields fields)) name (text = "") (IsText text) := by
  refine gives_text ?_
  rw [Json.lookup_sorted hkeys, h]
  split <;> rfl

theorem Properties.gives_sorted {p : Properties} (h : fields.lookup "properties" =
      if p ≠ .empty then some (.obj (p.entries.map fun e => (e.1, .str e.2))) else none) :
    Gives (Keyed.ofList (sortedFields fields)) "properties" (p = .empty) p.WrittenAs := by
  refine Properties.gives ?_
  rw [Json.lookup_sorted hkeys, h]
  split
  · exact congrArg some p.sorted_entries
  · rfl

end

namespace Element

theorem fits (e : Element) (depth : Nat) :
    e.toJson.Fits Model.selection (depth + 2) .element := by
  refine Model.fits_record ?_ (Model.fitsFields_append (Model.fitsFields_append ?_
    (Model.fitsFields_optionalText rfl)) (e.properties.fitsFields_field rfl depth))
  · rw [List.map_append, List.map_append]
    exact ((List.Sublist.refl ["id", "type", "name"]).append (keys_optionalText _ _)).append
      e.properties.keys_field
  · exact Model.fitsFields_cons rfl trivial (Model.fitsFields_cons rfl trivial
      (Model.fitsFields_cons rfl trivial trivial))

theorem writtenAs_sorted (e : Element) : e.WrittenAs e.toJson.sorted := by
  have hkeys := (e.fits 0).1
  refine ⟨_, rfl, .sorted hkeys ⟨_, rfl, rfl⟩, .sorted hkeys ⟨_, rfl, rfl⟩,
    .sorted hkeys ⟨_, rfl, rfl⟩, gives_sorted_text hkeys ?_, Properties.gives_sorted hkeys ?_⟩
  all_goals
    simp [List.lookup_append, lookup_optionalText, Properties.lookup_field, List.lookup_cons]

end Element

namespace Relationship

theorem fits (r : Relationship) (depth : Nat) :
    r.toJson.Fits Model.selection (depth + 2) .relationship := by
  refine Model.fits_record ?_ (Model.fitsFields_append (Model.fitsFields_append
    (Model.fitsFields_append (Model.fitsFields_append ?_ (Model.fitsFields_optionalText rfl)) ?_)
    (Model.fitsFields_optionalText rfl)) (r.properties.fitsFields_field rfl depth))
  · rw [List.map_append, List.map_append, List.map_append, List.map_append]
    exact ((((List.Sublist.refl ["id", "type"]).append (keys_optionalText _ _)).append
      (List.Sublist.refl ["source", "target"])).append (keys_optionalText _ _)).append
      r.properties.keys_field
  · exact Model.fitsFields_cons rfl trivial (Model.fitsFields_cons rfl trivial trivial)
  · exact Model.fitsFields_cons rfl trivial (Model.fitsFields_cons rfl trivial trivial)

theorem writtenAs_sorted (r : Relationship) : r.WrittenAs r.toJson.sorted := by
  have hkeys := (r.fits 0).1
  refine ⟨_, rfl, .sorted hkeys ⟨_, rfl, rfl⟩, .sorted hkeys ⟨_, rfl, rfl⟩,
    gives_sorted_text hkeys ?_, .sorted hkeys ⟨.str r.source, ?_, rfl⟩,
    .sorted hkeys ⟨.str r.target, ?_, rfl⟩,
    gives_sorted_text hkeys ?_, Properties.gives_sorted hkeys ?_⟩
  all_goals
    simp [List.lookup_append, lookup_optionalText, Properties.lookup_field, List.lookup_cons]

end Relationship

namespace Bounds

theorem fits_int {n : Int} (h : FitsInt64 n) (depth : Nat) (part : Model.Part) :
    (Json.int n).Fits Model.selection depth part :=
  ⟨h.1, Int.lt_trans h.2 (by decide)⟩

theorem fits {b : Bounds} (h : b.InRange) (depth : Nat) :
    b.toJson.Fits Model.selection (depth + 1) .bounds :=
  Model.fits_record (List.Sublist.refl _) (Model.fitsFields_cons rfl (fits_int h.x _ _)
    (Model.fitsFields_cons rfl (fits_int h.y _ _) (Model.fitsFields_cons rfl (fits_int h.width _ _)
      (Model.fitsFields_cons rfl (fits_int h.height _ _) trivial))))

theorem writtenAs_sorted (b : Bounds) : b.WrittenAs b.toJson.sorted := by
  refine ⟨_, rfl, .sorted ?_ ⟨_, rfl, rfl⟩, .sorted ?_ ⟨_, rfl, rfl⟩, .sorted ?_ ⟨_, rfl, rfl⟩,
    .sorted ?_ ⟨_, rfl, rfl⟩⟩
  all_goals exact Model.Part.nodup_keys .bounds

end Bounds

namespace Visual

theorem fits {c : Visual} (h : c.bounds.InRange) (depth : Nat) :
    c.toJson.Fits Model.selection (depth + 2) .visual :=
  Model.fits_record (List.Sublist.refl _) (Model.fitsFields_cons rfl trivial
    (Model.fitsFields_cons rfl trivial (Model.fitsFields_cons rfl (Bounds.fits h depth) trivial)))

theorem writtenAs_sorted (c : Visual) : c.WrittenAs c.toJson.sorted := by
  refine ⟨_, rfl, .sorted ?_ ⟨_, rfl, rfl⟩, .sorted ?_ ⟨_, rfl, rfl⟩,
    .sorted ?_ ⟨_, rfl, c.bounds.writtenAs_sorted⟩⟩
  all_goals exact Model.Part.nodup_keys .visual

end Visual

namespace Connection

theorem fits (c : Connection) (depth : Nat) :
    c.toJson.Fits Model.selection (depth + 1) .connection :=
  Model.fits_record (List.Sublist.refl _) (Model.fitsFields_cons rfl trivial
    (Model.fitsFields_cons rfl trivial (Model.fitsFields_cons rfl trivial
      (Model.fitsFields_cons rfl trivial trivial))))

theorem writtenAs_sorted (c : Connection) : c.WrittenAs c.toJson.sorted := by
  refine ⟨_, rfl, .sorted ?_ ⟨_, rfl, rfl⟩, .sorted ?_ ⟨_, rfl, rfl⟩, .sorted ?_ ⟨_, rfl, rfl⟩,
    .sorted ?_ ⟨_, rfl, rfl⟩⟩
  all_goals exact Model.Part.nodup_keys .connection

end Connection

namespace View

theorem fits {w : View} (h : w.InRange) (depth : Nat) :
    w.toJson.Fits Model.selection (depth + 4) .view := by
  refine Model.fits_record ?_ (Model.fitsFields_append (Model.fitsFields_append
    (Model.fitsFields_append ?_ (Model.fitsFields_optionalText rfl))
    (w.properties.fitsFields_field rfl _)) ?_)
  · rw [List.map_append, List.map_append, List.map_append]
    exact (((List.Sublist.refl ["id", "name"]).append (keys_optionalText _ _)).append
      w.properties.keys_field).append (List.Sublist.refl ["children", "connections"])
  · exact Model.fitsFields_cons rfl trivial (Model.fitsFields_cons rfl trivial trivial)
  · have hchildren : FitsItems Model.selection (depth + 2) .visuals 0
        (w.children.map Visual.toJson) :=
      Model.fitsItems_map (fun _ => rfl) (fun c hc => Visual.fits (h c hc) depth) 0
    have hconnections : FitsItems Model.selection (depth + 2) .connections 0
        (w.connections.map Connection.toJson) :=
      Model.fitsItems_map (fun _ => rfl) (fun c _ => c.fits (depth + 1)) 0
    exact Model.fitsFields_cons rfl hchildren (Model.fitsFields_cons rfl hconnections trivial)

theorem writtenAs_sorted {w : View} (h : w.InRange) : w.WrittenAs w.toJson.sorted := by
  have hkeys := (fits h 0).1
  refine ⟨_, rfl, .sorted hkeys ⟨_, rfl, rfl⟩, .sorted hkeys ⟨_, rfl, rfl⟩,
    gives_sorted_text hkeys ?_, Properties.gives_sorted hkeys ?_,
    .sorted hkeys (Or.inl ⟨_, ?_, Json.lists_sorted fun c _ => c.writtenAs_sorted⟩),
    .sorted hkeys (Or.inl ⟨_, ?_, Json.lists_sorted fun c _ => c.writtenAs_sorted⟩)⟩
  all_goals
    simp [List.lookup_append, lookup_optionalText, Properties.lookup_field, List.lookup_cons]

end View

namespace Folder

mutual

/-- How many folders are nested in each other, this one included. -/
def height : Folder → Nat
  | ⟨_, _, folders, _⟩ => heightIn folders + 1
termination_by structural f => f

def heightIn : List Folder → Nat
  | [] => 0
  | f :: fs => max (height f) (heightIn fs)
termination_by structural fs => fs

end

theorem allWrittenAs_sorted (fs : List Folder) :
    AllWrittenAs fs (Json.sortedItems (toJsonItems fs)) := by
  induction fs using forest_induction with
  | nil => rfl
  | cons fid name inner members rest hinner hrest =>
    refine ⟨_, _, rfl, ⟨_, rfl, .sorted ?_ ⟨_, rfl, rfl⟩, .sorted ?_ ⟨_, rfl, rfl⟩,
      .sorted ?_ (Or.inl ⟨_, rfl, _, rfl, hinner⟩),
      .sorted ?_ (Or.inl ⟨_, rfl, Json.lists_sorted fun m _ => Json.isText_str m⟩)⟩, hrest⟩
    all_goals exact Model.Part.nodup_keys .folder

end Folder

namespace Model

theorem writtenAs_sorted {m : Model} (h : m.InRange) : m.WrittenAs m.toJson.sorted := by
  have hviews : ∀ w ∈ m.views, w.WrittenAs w.toJson.sorted := fun w hw =>
    View.writtenAs_sorted (h.views w hw)
  refine ⟨_, rfl, .sorted ?_ (Or.inl ⟨_, rfl, rfl⟩),
    .sorted ?_ (Or.inl ⟨_, rfl, Json.lists_sorted fun e _ => e.writtenAs_sorted⟩),
    .sorted ?_ (Or.inl ⟨_, rfl, Json.lists_sorted fun r _ => r.writtenAs_sorted⟩),
    .sorted ?_ (Or.inl ⟨_, rfl, Json.lists_sorted hviews⟩),
    .sorted ?_ (Or.inl ⟨_, rfl, _, rfl, Folder.allWrittenAs_sorted m.folders⟩),
    .sorted ?_ (Or.inl ⟨_, rfl, rfl⟩)⟩
  all_goals exact Part.nodup_keys .model

/-- The octets are the serialization of the model: the text of a value that has its parts. They are
read as the model again, if its numbers fit 64 bits and its folders are not nested more deeply than
the reader goes. -/
structure SpelledBy (m : Model) (content : List UInt8) : Prop where
  text : content = Text.encode m.toJson.pretty
  parts : m.WrittenAs m.toJson
  readsBack : m.InRange → Folder.heightIn m.folders ≤ 62 → ofBytes? content = some m

end Model

end ArchChange
