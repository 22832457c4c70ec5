import ArchChange.Model.Wire
import ArchChange.Proofs.Model.FolderTree
import ArchChange.Proofs.Model.WellFormed
import ArchChange.Proofs.Plan.Decoding
import Mathlib.Data.List.Sort
/-!
The wire form of models loses nothing. A model may be written as any value that has its parts,
whatever else stands there and whichever empty parts are left out: each such value is decoded to the
model, its encoding is one of them, and only models that can be encoded come out of decoding.
-/
namespace ArchChange

open Json (IsText Lists Holds Gives Reads reads_text reads_list required?_of_holds
  defaulted?_of_gives)

/-! The vocabularies. -/

theorem ElementType.mem_all (t : ElementType) : t ∈ all := by
  cases t <;> decide

theorem ElementType.nodup_ids : (all.map id).Nodup := by
  decide +kernel

theorem ElementType.ofId?_id (t : ElementType) : ofId? t.id = some t :=
  Model.find?_of_mem nodup_ids t.mem_all

theorem RelationshipType.ofWord?_word (t : RelationshipType) : ofWord? t.word = some t := by
  cases t <;> decide

theorem reads_elementType (t : ElementType) :
    Reads (fun v => v.name?.bind ElementType.ofId?) (IsText t.id) t := by
  rintro v rfl
  exact t.ofId?_id

theorem reads_relationshipType (t : RelationshipType) :
    Reads (fun v => v.name?.bind RelationshipType.ofWord?) (IsText t.word) t := by
  rintro v rfl
  exact t.ofWord?_word

/-! What may be left out. -/

section

variable {fields : List (String × Json)} {name text : String}

theorem lookup_singleton (key : String) (v : Json) :
    [(name, v)].lookup key = if key = name then some v else none := by
  rw [List.lookup_cons, List.lookup_nil]
  cases h : key == name with
  | true => rw [if_pos (beq_iff_eq.mp h)]
  | false => rw [if_neg (beq_eq_false_iff_ne.mp h)]

theorem lookup_optionalText (key : String) : (optionalText name text).lookup key =
    if key = name ∧ text ≠ "" then some (.str text) else none := by
  unfold optionalText
  by_cases he : text = ""
  · simp [he]
  · simp [he, lookup_singleton]

theorem gives_text (h : fields.lookup name = if text ≠ "" then some (.str text) else none) :
    Gives fields name (text = "") (IsText text) := by
  by_cases he : text = ""
  · rw [if_neg (not_not.mpr he)] at h
    exact Or.inr ⟨h, he⟩
  · rw [if_pos he] at h
    exact Or.inl ⟨_, h, rfl⟩

end

theorem Keyed.Ascending.nodup_keys {α : Type} {entries : List (String × α)}
    (h : Ascending entries) : (entries.map Prod.fst).Nodup := by
  refine List.pairwise_map.mpr (h.imp fun hlt heq => ?_)
  rw [heq] at hlt
  exact String.lt_irrefl _ hlt

/-- Entries with distinct keys can be in one ascending order only. -/
theorem Keyed.ofList_eq_of_perm {α : Type} {own entries : List (String × α)}
    (hown : Ascending own) (h : entries.Perm own) : ofList entries = own := by
  have hperm := (perm_ofList ((h.map Prod.fst).nodup_iff.mpr hown.nodup_keys)).trans h
  refine hperm.eq_of_pairwise ?_ (ascending_ofList entries) hown
  intro e f _ _ hlt hgt
  exact absurd (String.lt_trans hlt hgt) (String.lt_irrefl _)

namespace Properties

/-- The value is an object with the properties as its fields, in any order. -/
def WrittenAs (p : Properties) (v : Json) : Prop :=
  ∃ entries : List (String × String), entries.Perm p.entries ∧
    v = .obj (entries.map fun e => (e.1, .str e.2))

theorem nodup_keys (p : Properties) : (p.entries.map Prod.fst).Nodup :=
  p.ascending.nodup_keys

theorem ofList_of_perm {p : Properties} {entries : List (String × String)}
    (h : entries.Perm p.entries) : ofList entries = p := by
  simp only [ofList, Keyed.ofList_eq_of_perm p.ascending h]

theorem reads_ofJson? (p : Properties) : Reads ofJson? p.WrittenAs p := by
  rintro v ⟨entries, hperm, rfl⟩
  have hentries : (entries.map fun e => (e.1, Json.str e.2)).mapM entry? = some entries := by
    refine mapM_of_forall₂ (List.forall₂_map_left_iff.mpr (List.forall₂_same.mpr fun e _ => rfl))
  simp [ofJson?, Json.fields?, hentries, ofList_of_perm hperm]

theorem isEmpty_iff {p : Properties} : p.isEmpty ↔ p = .empty := by
  obtain ⟨entries, ascending⟩ := p
  rw [isEmpty, List.isEmpty_iff]
  constructor
  · rintro rfl
    rfl
  · exact congrArg Properties.entries

theorem lookup_field (p : Properties) (key : String) : p.field.lookup key =
    if key = "properties" ∧ p ≠ .empty then
      some (.obj (p.entries.map fun e => (e.1, .str e.2))) else none := by
  unfold field
  split
  · next he => simp [isEmpty_iff.mp he]
  · next he => simp [mt isEmpty_iff.mpr he, lookup_singleton]

theorem gives {p : Properties} {fields : List (String × Json)}
    (h : fields.lookup "properties" =
      if p ≠ .empty then some (.obj (p.entries.map fun e => (e.1, .str e.2))) else none) :
    Gives fields "properties" (p = .empty) p.WrittenAs := by
  by_cases he : p = .empty
  · rw [if_neg (not_not.mpr he)] at h
    exact Or.inr ⟨h, he⟩
  · rw [if_pos he] at h
    exact Or.inl ⟨_, h, _, List.Perm.refl _, rfl⟩

end Properties

/-! Records. A record may be written as an object that has its parts among its fields. -/

namespace Element

def WrittenAs (e : Element) (v : Json) : Prop :=
  ∃ fields, v = .obj fields ∧ Holds fields "id" (IsText e.id) ∧
    Holds fields "type" (IsText e.type.id) ∧ Holds fields "name" (IsText e.name) ∧
    Gives fields "documentation" (e.documentation = "") (IsText e.documentation) ∧
    Gives fields "properties" (e.properties = .empty) e.properties.WrittenAs

theorem reads_ofJson? (e : Element) : Reads ofJson? e.WrittenAs e := by
  rintro v ⟨fields, rfl, hid, htype, hname, hdocumentation, hproperties⟩
  simp [ofJson?, Json.record?, required?_of_holds (reads_text _) hid,
    required?_of_holds (reads_elementType _) htype, required?_of_holds (reads_text _) hname,
    defaulted?_of_gives (reads_text _) hdocumentation,
    defaulted?_of_gives e.properties.reads_ofJson? hproperties]

theorem writtenAs_toJson (e : Element) : e.WrittenAs e.toJson := by
  refine ⟨_, rfl, ⟨_, rfl, rfl⟩, ⟨_, rfl, rfl⟩, ⟨_, rfl, rfl⟩, gives_text ?_, Properties.gives ?_⟩
  · simp [List.lookup_append, lookup_optionalText, Properties.lookup_field, List.lookup_cons]
  · simp [List.lookup_append, lookup_optionalText, Properties.lookup_field, List.lookup_cons]

end Element

namespace Relationship

def WrittenAs (r : Relationship) (v : Json) : Prop :=
  ∃ fields, v = .obj fields ∧ Holds fields "id" (IsText r.id) ∧
    Holds fields "type" (IsText r.type.word) ∧ Gives fields "name" (r.name = "") (IsText r.name) ∧
    Holds fields "source" (IsText r.source) ∧ Holds fields "target" (IsText r.target) ∧
    Gives fields "documentation" (r.documentation = "") (IsText r.documentation) ∧
    Gives fields "properties" (r.properties = .empty) r.properties.WrittenAs

theorem reads_ofJson? (r : Relationship) : Reads ofJson? r.WrittenAs r := by
  rintro v ⟨fields, rfl, hid, htype, hname, hsource, htarget, hdocumentation, hproperties⟩
  simp [ofJson?, Json.record?, required?_of_holds (reads_text _) hid,
    required?_of_holds (reads_relationshipType _) htype,
    defaulted?_of_gives (reads_text _) hname, required?_of_holds (reads_text _) hsource,
    required?_of_holds (reads_text _) htarget, defaulted?_of_gives (reads_text _) hdocumentation,
    defaulted?_of_gives r.properties.reads_ofJson? hproperties]

theorem writtenAs_toJson (r : Relationship) : r.WrittenAs r.toJson := by
  refine ⟨_, rfl, ⟨_, rfl, rfl⟩, ⟨_, rfl, rfl⟩, gives_text ?_, ⟨_, ?_, rfl⟩, ⟨_, ?_, rfl⟩,
    gives_text ?_, Properties.gives ?_⟩
  all_goals
    simp [List.lookup_append, lookup_optionalText, Properties.lookup_field, List.lookup_cons]

end Relationship

namespace Bounds

def WrittenAs (b : Bounds) (v : Json) : Prop :=
  ∃ fields, v = .obj fields ∧ Holds fields "x" (· = .int b.x) ∧ Holds fields "y" (· = .int b.y) ∧
    Holds fields "width" (· = .int b.width) ∧ Holds fields "height" (· = .int b.height)

/-- The coordinates and the size fit 64 bits. -/
structure InRange (b : Bounds) : Prop where
  x : FitsInt64 b.x
  y : FitsInt64 b.y
  width : FitsInt64 b.width
  height : FitsInt64 b.height

theorem reads_int64? {n : Int} (h : FitsInt64 n) : Reads Json.int64? (· = .int n) n := by
  rintro v rfl
  exact Json.int64?_int h

theorem reads_ofJson? {b : Bounds} (h : b.InRange) : Reads ofJson? b.WrittenAs b := by
  rintro v ⟨fields, rfl, hx, hy, hwidth, hheight⟩
  simp [ofJson?, Json.record?, required?_of_holds (reads_int64? h.x) hx,
    required?_of_holds (reads_int64? h.y) hy, required?_of_holds (reads_int64? h.width) hwidth,
    required?_of_holds (reads_int64? h.height) hheight]

theorem writtenAs_toJson (b : Bounds) : b.WrittenAs b.toJson :=
  ⟨_, rfl, ⟨_, rfl, rfl⟩, ⟨_, rfl, rfl⟩, ⟨_, rfl, rfl⟩, ⟨_, rfl, rfl⟩⟩

end Bounds

namespace Visual

def WrittenAs (c : Visual) (v : Json) : Prop :=
  ∃ fields, v = .obj fields ∧ Holds fields "id" (IsText c.id) ∧
    Holds fields "entity_id" (IsText c.entityId) ∧ Holds fields "bounds" c.bounds.WrittenAs

theorem reads_ofJson? {c : Visual} (h : c.bounds.InRange) : Reads ofJson? c.WrittenAs c := by
  rintro v ⟨fields, rfl, hid, hentity, hbounds⟩
  simp [ofJson?, Json.record?, required?_of_holds (reads_text _) hid,
    required?_of_holds (reads_text _) hentity,
    required?_of_holds (Bounds.reads_ofJson? h) hbounds]

theorem writtenAs_toJson (c : Visual) : c.WrittenAs c.toJson :=
  ⟨_, rfl, ⟨_, rfl, rfl⟩, ⟨_, rfl, rfl⟩, _, rfl, c.bounds.writtenAs_toJson⟩

end Visual

namespace Connection

def WrittenAs (c : Connection) (v : Json) : Prop :=
  ∃ fields, v = .obj fields ∧ Holds fields "id" (IsText c.id) ∧
    Holds fields "relationship_id" (IsText c.relationshipId) ∧
    Holds fields "source_visual" (IsText c.sourceVisual) ∧
    Holds fields "target_visual" (IsText c.targetVisual)

theorem reads_ofJson? (c : Connection) : Reads ofJson? c.WrittenAs c := by
  rintro v ⟨fields, rfl, hid, hrelationship, hsource, htarget⟩
  simp [ofJson?, Json.record?, required?_of_holds (reads_text _) hid,
    required?_of_holds (reads_text _) hrelationship, required?_of_holds (reads_text _) hsource,
    required?_of_holds (reads_text _) htarget]

theorem writtenAs_toJson (c : Connection) : c.WrittenAs c.toJson :=
  ⟨_, rfl, ⟨_, rfl, rfl⟩, ⟨_, rfl, rfl⟩, ⟨_, rfl, rfl⟩, ⟨_, rfl, rfl⟩⟩

end Connection

namespace View

def WrittenAs (w : View) (v : Json) : Prop :=
  ∃ fields, v = .obj fields ∧ Holds fields "id" (IsText w.id) ∧
    Holds fields "name" (IsText w.name) ∧
    Gives fields "documentation" (w.documentation = "") (IsText w.documentation) ∧
    Gives fields "properties" (w.properties = .empty) w.properties.WrittenAs ∧
    Gives fields "children" (w.children = []) (Lists Visual.WrittenAs w.children) ∧
    Gives fields "connections" (w.connections = []) (Lists Connection.WrittenAs w.connections)

/-- What is drawn on the view fits 64 bits. -/
def InRange (w : View) : Prop :=
  ∀ c ∈ w.children, c.bounds.InRange

theorem reads_ofJson? {w : View} (h : w.InRange) : Reads ofJson? w.WrittenAs w := by
  rintro v ⟨fields, rfl, hid, hname, hdocumentation, hproperties, hchildren, hconnections⟩
  simp [ofJson?, Json.record?, required?_of_holds (reads_text _) hid,
    required?_of_holds (reads_text _) hname, defaulted?_of_gives (reads_text _) hdocumentation,
    defaulted?_of_gives w.properties.reads_ofJson? hproperties,
    defaulted?_of_gives (reads_list fun c hc => Visual.reads_ofJson? (h c hc)) hchildren,
    defaulted?_of_gives (reads_list fun c _ => c.reads_ofJson?) hconnections]

theorem writtenAs_toJson (w : View) : w.WrittenAs w.toJson := by
  refine ⟨_, rfl, ⟨_, rfl, rfl⟩, ⟨_, rfl, rfl⟩, gives_text ?_, Properties.gives ?_,
    Or.inl ⟨_, ?_, Json.lists_map Visual.writtenAs_toJson w.children⟩,
    Or.inl ⟨_, ?_, Json.lists_map Connection.writtenAs_toJson w.connections⟩⟩
  all_goals
    simp [List.lookup_append, lookup_optionalText, Properties.lookup_field, List.lookup_cons]

end View

namespace Folder

mutual

def WrittenAs : Folder → Json → Prop
  | ⟨id, name, folders, members⟩, v => ∃ fields, v = .obj fields ∧
    Holds fields "id" (IsText id) ∧ Holds fields "name" (IsText name) ∧
    Gives fields "folders" (folders = []) (fun v => ∃ items, v = .arr items ∧
      AllWrittenAs folders items) ∧
    Gives fields "members" (members = []) (Lists IsText members)
termination_by structural f => f

/-- The values are those that some folders may be written as, in order. -/
def AllWrittenAs : List Folder → List Json → Prop
  | [], items => items = []
  | f :: fs, items => ∃ v vs, items = v :: vs ∧ WrittenAs f v ∧ AllWrittenAs fs vs
termination_by structural fs => fs

end

theorem inField?_eq (fields : List (String × Json)) :
    inField? fields = Json.defaulted? fields "folders" [] ofList? := by
  induction fields with
  | nil => rfl
  | cons p fields ih =>
    obtain ⟨key, v⟩ := p
    rw [inField?, ih, Json.defaulted?, Json.defaulted?, List.lookup_cons]
    by_cases hk : key = "folders"
    · simp [hk]
    · simp [hk, beq_eq_false_iff_ne.mpr (Ne.symm hk)]

theorem ofItems?_of_allWrittenAs {fs : List Folder} {items : List Json}
    (h : AllWrittenAs fs items) : ofItems? items = some fs := by
  induction fs using forest_induction generalizing items with
  | nil =>
    obtain rfl := h
    rfl
  | cons fid name inner members rest hinner hrest =>
    obtain ⟨_, vs, rfl, ⟨fields, rfl, hid, hname, hfolders, hmembers⟩, hvs⟩ := h
    have hread : Reads ofList? (fun v => ∃ items, v = .arr items ∧ AllWrittenAs inner items)
        inner := by
      rintro v ⟨items, rfl, hitems⟩
      exact hinner hitems
    simp [ofItems?, ofJson?, inField?_eq, defaulted?_of_gives hread hfolders, ofFields?,
      required?_of_holds (reads_text _) hid, required?_of_holds (reads_text _) hname,
      defaulted?_of_gives (reads_list fun m _ => reads_text m) hmembers, hrest hvs]

theorem allWrittenAs_toJsonItems (fs : List Folder) : AllWrittenAs fs (toJsonItems fs) := by
  induction fs using forest_induction with
  | nil => rfl
  | cons fid name inner members rest hinner hrest =>
    exact ⟨_, _, rfl, ⟨_, rfl, ⟨_, rfl, rfl⟩, ⟨_, rfl, rfl⟩, Or.inl ⟨_, rfl, _, rfl, hinner⟩,
      Or.inl ⟨_, rfl, Json.lists_map Json.isText_str members⟩⟩, hrest⟩

end Folder

namespace Model

/-- The value is an object with the parts of a model among its fields. Parts that are empty may be
left out of it and of the records inside it. -/
def WrittenAs (m : Model) (v : Json) : Prop :=
  ∃ fields, v = .obj fields ∧ Gives fields "name" (m.name = "") (IsText m.name) ∧
    Gives fields "elements" (m.elements = []) (Lists Element.WrittenAs m.elements) ∧
    Gives fields "relationships" (m.relationships = [])
      (Lists Relationship.WrittenAs m.relationships) ∧
    Gives fields "views" (m.views = []) (Lists View.WrittenAs m.views) ∧
    Gives fields "folders" (m.folders = [])
      (fun v => ∃ items, v = .arr items ∧ Folder.AllWrittenAs m.folders items) ∧
    Gives fields "next_id" (m.nextId = 0) (· = .nat m.nextId)

/-- The numbers in the model fit 64 bits. -/
structure InRange (m : Model) : Prop where
  views : ∀ w ∈ m.views, w.InRange
  nextId : m.nextId < 0x10000000000000000

theorem reads_nat64? {n : Nat} (h : n < 0x10000000000000000) :
    Reads Json.nat64? (· = .nat n) n := by
  rintro v rfl
  have hfits : (0 : Int) ≤ n ∧ (n : Int) < 0x10000000000000000 := by omega
  simp [Json.nat, Json.int, Json.nat64?, hfits]

theorem reads_ofJson? {m : Model} (h : m.InRange) : Reads ofJson? m.WrittenAs m := by
  rintro v ⟨fields, rfl, hname, helements, hrelationships, hviews, hfolders, hnextId⟩
  have hread : Reads Folder.ofList?
      (fun v => ∃ items, v = .arr items ∧ Folder.AllWrittenAs m.folders items) m.folders := by
    rintro v ⟨items, rfl, hitems⟩
    exact Folder.ofItems?_of_allWrittenAs hitems
  simp [ofJson?, Json.record?, defaulted?_of_gives (reads_text _) hname,
    defaulted?_of_gives (reads_list fun e _ => e.reads_ofJson?) helements,
    defaulted?_of_gives (reads_list fun r _ => r.reads_ofJson?) hrelationships,
    defaulted?_of_gives (reads_list fun w hw => View.reads_ofJson? (h.views w hw)) hviews,
    defaulted?_of_gives hread hfolders, defaulted?_of_gives (reads_nat64? h.nextId) hnextId]

theorem writtenAs_toJson (m : Model) : m.WrittenAs m.toJson :=
  ⟨_, rfl, Or.inl ⟨_, rfl, rfl⟩,
    Or.inl ⟨_, rfl, Json.lists_map Element.writtenAs_toJson m.elements⟩,
    Or.inl ⟨_, rfl, Json.lists_map Relationship.writtenAs_toJson m.relationships⟩,
    Or.inl ⟨_, rfl, Json.lists_map View.writtenAs_toJson m.views⟩,
    Or.inl ⟨_, rfl, _, rfl, Folder.allWrittenAs_toJsonItems m.folders⟩, Or.inl ⟨_, rfl, rfl⟩⟩

end Model

/-! Decoded numbers fit 64 bits. -/

theorem fitsInt64_of_required? {fields : List (String × Json)} {name : String} {n : Int}
    (h : Json.required? fields name Json.int64? = some n) : FitsInt64 n := by
  obtain ⟨v, -, hv⟩ := Option.bind_eq_some_iff.mp h
  unfold Json.int64? at hv
  split at hv
  · split at hv
    · next hfits =>
      cases hv
      exact hfits
    · cases hv
  · cases hv

theorem fits_of_defaulted? {fields : List (String × Json)} {name : String} {n : Nat}
    (h : Json.defaulted? fields name 0 Json.nat64? = some n) : n < 0x10000000000000000 := by
  unfold Json.defaulted? Json.nat64? at h
  split at h
  · cases h
    decide
  · split at h
    · split at h
      · next i hfits =>
        cases h
        omega
      · cases h
    · cases h

theorem Bounds.inRange_of_ofJson? {v : Json} {b : Bounds} (h : ofJson? v = some b) :
    b.InRange := by
  simp only [ofJson?, Option.bind_eq_bind, Option.bind_eq_some_iff] at h
  obtain ⟨fields, -, x, hx, y, hy, width, hwidth, height, hheight, heq⟩ := h
  cases heq
  exact ⟨fitsInt64_of_required? hx, fitsInt64_of_required? hy, fitsInt64_of_required? hwidth,
    fitsInt64_of_required? hheight⟩

theorem Visual.inRange_of_ofJson? {v : Json} {c : Visual} (h : ofJson? v = some c) :
    c.bounds.InRange := by
  simp only [ofJson?, Option.bind_eq_bind, Option.bind_eq_some_iff] at h
  obtain ⟨fields, -, id, -, entity, -, bounds, hbounds, heq⟩ := h
  cases heq
  obtain ⟨w, -, hw⟩ := Option.bind_eq_some_iff.mp hbounds
  exact Bounds.inRange_of_ofJson? hw

theorem View.inRange_of_ofJson? {v : Json} {w : View} (h : ofJson? v = some w) : w.InRange := by
  simp only [ofJson?, Option.bind_eq_bind, Option.bind_eq_some_iff] at h
  obtain ⟨fields, -, id, -, name, -, documentation, -, properties, -, children, hchildren,
    connections, -, heq⟩ := h
  cases heq
  intro c hc
  obtain ⟨u, hu⟩ := Json.exists_read_of_mem hchildren hc
  exact Visual.inRange_of_ofJson? hu

namespace Model

theorem inRange_of_ofJson? {v : Json} {m : Model} (h : ofJson? v = some m) : m.InRange := by
  simp only [ofJson?, Option.bind_eq_bind, Option.bind_eq_some_iff] at h
  obtain ⟨fields, -, name, -, elements, -, relationships, -, views, hviews, folders, -, nextId,
    hnextId, heq⟩ := h
  cases heq
  refine ⟨fun w hw => ?_, fits_of_defaulted? hnextId⟩
  obtain ⟨u, hu⟩ := Json.exists_read_of_mem hviews hw
  exact View.inRange_of_ofJson? hu

/-- The wire form loses nothing: a model is decoded, in full and in order, from its encoding and
from every value that it may be written as; and whatever value a model was decoded from, it is
decoded from its encoding again. -/
theorem ofJson?_lossless (m : Model) :
    (m.InRange → ofJson? m.toJson = some m ∧ ∀ v, m.WrittenAs v → ofJson? v = some m) ∧
    ∀ v, ofJson? v = some m → m.InRange ∧ ofJson? m.toJson = some m := by
  have hencoded : m.InRange → ofJson? m.toJson = some m := fun h =>
    reads_ofJson? h _ m.writtenAs_toJson
  refine ⟨fun h => ⟨hencoded h, reads_ofJson? h⟩, fun v hv => ?_⟩
  have hrange := inRange_of_ofJson? hv
  exact ⟨hrange, hencoded hrange⟩

/-- A value with a nested folder and extreme numbers, in which empty parts lack, keys stand in
another order and unknown ones stray. -/
theorem ofJson?_lossless_sample :
    let m : Model := {
      name := "Office"
      elements := [⟨"a", .businessActor, "Clerk", "", .ofList [("rank", "1")]⟩]
      relationships := [⟨"r", .serving, "", "a", "a", "Self-service", .empty⟩]
      views := [⟨"v", "Desk", "", .empty, [⟨"c", "a", ⟨-1, 0x7fffffffffffffff, 0, 0⟩⟩], []⟩]
      folders := [⟨"f", "Other", [⟨"g", "Old", [], ["a"]⟩], []⟩]
      nextId := 0xffffffffffffffff }
    let v : Json := .obj [
      ("next_id", .nat 0xffffffffffffffff), ("color", .null), ("name", .str "Office"),
      ("elements", .arr [.obj [("name", .str "Clerk"), ("type", .str "business-actor"),
        ("note", .arr []), ("id", .str "a"), ("properties", .obj [("rank", .str "1")])]]),
      ("relationships", .arr [.obj [("id", .str "r"), ("type", .str "serving"),
        ("documentation", .str "Self-service"), ("source", .str "a"), ("target", .str "a")]]),
      ("views", .arr [.obj [("id", .str "v"), ("name", .str "Desk"), ("children", .arr [.obj [
        ("id", .str "c"), ("entity_id", .str "a"), ("bounds", .obj [("x", .int (-1)),
        ("y", .int 0x7fffffffffffffff), ("width", .int 0), ("height", .int 0)])]])]]),
      ("folders", .arr [.obj [("id", .str "f"), ("name", .str "Other"), ("folders", .arr [
        .obj [("members", .strings ["a"]), ("name", .str "Old"), ("id", .str "g")]])]])]
    m.InRange ∧ m.WrittenAs v ∧ ofJson? m.toJson = some m ∧ ofJson? v = some m := by
  intro m v
  have hrange : m.InRange := by
    refine ⟨?_, by decide⟩
    simp only [m, List.forall_mem_singleton, View.InRange]
    constructor <;> simp [FitsInt64]
  have htype : IsText (ElementType.id .businessActor) (.str "business-actor") :=
    congrArg Json.str (by decide +kernel)
  have hword : IsText (RelationshipType.word .serving) (.str "serving") :=
    congrArg Json.str (by decide +kernel)
  have hwritten : m.WrittenAs v := by
    refine ⟨_, rfl, Or.inl ⟨_, rfl, rfl⟩, Or.inl ⟨_, rfl, _, rfl, .cons ?_ .nil⟩,
      Or.inl ⟨_, rfl, _, rfl, .cons ?_ .nil⟩, Or.inl ⟨_, rfl, _, rfl, .cons ?_ .nil⟩,
      Or.inl ⟨_, rfl, _, rfl, _, _, rfl, ?_, rfl⟩, Or.inl ⟨_, rfl, rfl⟩⟩
    · exact ⟨_, rfl, ⟨_, rfl, rfl⟩, ⟨_, rfl, htype⟩, ⟨_, rfl, rfl⟩, Or.inr ⟨rfl, rfl⟩,
        Or.inl ⟨_, rfl, _, .refl _, rfl⟩⟩
    · exact ⟨_, rfl, ⟨_, rfl, rfl⟩, ⟨_, rfl, hword⟩, Or.inr ⟨rfl, rfl⟩, ⟨_, rfl, rfl⟩,
        ⟨_, rfl, rfl⟩, Or.inl ⟨_, rfl, rfl⟩, Or.inr ⟨rfl, rfl⟩⟩
    · refine ⟨_, rfl, ⟨_, rfl, rfl⟩, ⟨_, rfl, rfl⟩, Or.inr ⟨rfl, rfl⟩, Or.inr ⟨rfl, rfl⟩,
        Or.inl ⟨_, rfl, _, rfl, .cons ?_ .nil⟩, Or.inr ⟨rfl, rfl⟩⟩
      exact ⟨_, rfl, ⟨_, rfl, rfl⟩, ⟨_, rfl, rfl⟩, _, rfl, Bounds.writtenAs_toJson _⟩
    · refine ⟨_, rfl, ⟨_, rfl, rfl⟩, ⟨_, rfl, rfl⟩, Or.inl ⟨_, rfl, _, rfl, _, _, rfl, ?_, rfl⟩,
        Or.inr ⟨rfl, rfl⟩⟩
      exact ⟨_, rfl, ⟨_, rfl, rfl⟩, ⟨_, rfl, rfl⟩, Or.inr ⟨rfl, rfl⟩,
        Or.inl ⟨_, rfl, Json.lists_map Json.isText_str ["a"]⟩⟩
  obtain ⟨hencoded, hdecoded⟩ := (ofJson?_lossless m).1 hrange
  exact ⟨hrange, hwritten, hencoded, hdecoded v hwritten⟩

end Model

end ArchChange
