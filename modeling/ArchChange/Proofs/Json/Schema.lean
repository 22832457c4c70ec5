import ArchChange.Json.Basic
import Mathlib.Data.Rat.Cast.Order
/-!
What a JSON Schema asks of a value. A schema is a JSON value itself, true and false among them, and
each of its keywords asks something of the values that it applies to. The keywords are those that
the schema of plans uses, where only texts are enumerated; others ask nothing.
-/
namespace ArchChange

namespace Number

/-- The number that stands there, whatever form it is written in. -/
def value : Number → Rat
  | int n => n
  | double d =>
    let q := mkRat d.magnitude.ratio.1 d.magnitude.ratio.2
    if d.negative then -q else q

theorem value_int (n : Int) : (int n).value = n := rfl

/-- Whether the number is a whole one. -/
def isIntegral (n : Number) : Bool :=
  n.value.isInt

end Number

namespace Json

/-- Whether a value is of a type. Every integer is a number, and one that is written as a double is
an integer nevertheless. -/
def hasType (v : Json) (name : String) : Bool :=
  match v with
  | num n => name = "number" || (name = "integer" && n.isIntegral)
  | _ => name = v.kind.name

/-- The names in the `properties` among keywords. -/
def propertyNames (keywords : List (String × Json)) : List String :=
  keywords.flatMap fun k =>
    match k with
    | ("properties", obj properties) => properties.map Prod.fst
    | _ => []

/-- Whether a value does what a keyword without schemas in it asks. -/
@[simp] def satisfies (keyword : String) (arg v : Json) : Bool :=
  match keyword, arg with
  | "type", str name => v.hasType name
  | "type", arr names => (names.filterMap text?).any v.hasType
  | "enum", arr texts => v.text?.any (texts.filterMap text?).contains
  | "minLength", num (.int least) => v.text?.all fun s => least ≤ s.length
  | "maxLength", num (.int greatest) => v.text?.all fun s => s.length ≤ greatest
  | "minimum", num least =>
    match v with
    | num n => least.value ≤ n.value
    | _ => true
  | "maximum", num greatest =>
    match v with
    | num n => n.value ≤ greatest.value
    | _ => true
  | "maxItems", num (.int greatest) => v.items?.all fun items => items.length ≤ greatest
  | "required", arr names =>
    v.fields?.all fun fields =>
      (names.filterMap text?).all fun name => (fields.lookup name).isSome
  | _, _ => true

mutual

/-- Whether a value conforms to a schema. -/
def conforms : Json → Json → Bool
  | bool allowed, _ => allowed
  | obj keywords, v => conformsToAll (propertyNames keywords) keywords v
  | _, _ => false
termination_by structural schema => schema

/-- Whether a value does what each of the keywords asks, with `declared` the names that are not
additional. -/
def conformsToAll (declared : List String) : List (String × Json) → Json → Bool
  | [], _ => true
  | (keyword, arg) :: keywords, v =>
    (match keyword with
      | "items" => v.items?.all fun items => items.all (conforms arg)
      | "properties" => v.fields?.all (conformsToProperties arg)
      | "additionalProperties" =>
        v.fields?.all fun fields => fields.all fun f => declared.contains f.1 || conforms arg f.2
      | _ => satisfies keyword arg v) && conformsToAll declared keywords v
termination_by structural keywords => keywords

/-- Whether the values of an object's fields conform to the schemas for them. -/
def conformsToProperties : Json → List (String × Json) → Bool
  | obj properties, fields => conformsToEach properties fields
  | _, _ => false
termination_by structural properties => properties

def conformsToEach : List (String × Json) → List (String × Json) → Bool
  | [], _ => true
  | (name, schema) :: properties, fields =>
    (fields.lookup name).all (conforms schema) && conformsToEach properties fields
termination_by structural properties => properties

end

section

variable {v schema : Json} {keywords fields properties : List (String × Json)}
  {declared names : List String}

theorem mem_propertyNames {name : String} : name ∈ propertyNames keywords ↔
    ∃ properties, ("properties", obj properties) ∈ keywords ∧ name ∈ properties.map Prod.fst := by
  rw [propertyNames, List.mem_flatMap]
  constructor
  · rintro ⟨k, hk, hname⟩
    split at hname
    · exact ⟨_, hk, hname⟩
    · cases hname
  · rintro ⟨properties, hk, hname⟩
    exact ⟨_, hk, hname⟩

theorem mem_propertyNames_ofList (h : (keywords.map Prod.fst).Nodup) {name : String} :
    name ∈ propertyNames (Keyed.ofList keywords) ↔ name ∈ propertyNames keywords := by
  simp only [mem_propertyNames, (Keyed.perm_ofList h).mem_iff]

theorem conformsToAll_congr {declared' : List String}
    (h : ∀ name, name ∈ declared ↔ name ∈ declared') :
    conformsToAll declared keywords v = conformsToAll declared' keywords v := by
  have hcontains (name : String) : declared.contains name = declared'.contains name := by
    simp [h]
  induction keywords with
  | nil => rfl
  | cons k keywords ih => simp only [conformsToAll, hcontains, ih]

theorem conformsToAll_iff : conformsToAll declared keywords v ↔
    ∀ k ∈ keywords, conformsToAll declared [k] v := by
  induction keywords with
  | nil => simp [conformsToAll]
  | cons k keywords ih =>
    obtain ⟨keyword, arg⟩ := k
    rw [List.forall_mem_cons, ← ih]
    simp only [conformsToAll, Bool.and_true, Bool.and_eq_true]

/-- The keywords of a schema can be read in any order. -/
theorem conforms_object (h : (keywords.map Prod.fst).Nodup) : conforms (object keywords) v ↔
    ∀ k ∈ keywords, conformsToAll (propertyNames keywords) [k] v := by
  rw [object, conforms, conformsToAll_congr fun _ => mem_propertyNames_ofList h, conformsToAll_iff]
  exact forall_congr' fun k => imp_congr_left (Keyed.perm_ofList h).mem_iff

/-! The keywords one by one. -/

theorem conformsToAll_assertion {keyword : String} {arg : Json}
    (h : keyword ∉ ["items", "properties", "additionalProperties"]) :
    conformsToAll declared [(keyword, arg)] v = satisfies keyword arg v := by
  rw [conformsToAll, conformsToAll, Bool.and_true]
  all_goals
    rintro rfl
    exact h (by simp)

@[simp] theorem conformsToAll_type (name : String) :
    conformsToAll declared [("type", str name)] v ↔ v.hasType name := by
  rw [conformsToAll_assertion (by decide)]
  simp

@[simp] theorem conformsToAll_types :
    conformsToAll declared [("type", strings names)] v ↔ ∃ name ∈ names, v.hasType name := by
  rw [conformsToAll_assertion (by decide)]
  simp [strings, text?]

@[simp] theorem conformsToAll_enum :
    conformsToAll declared [("enum", strings names)] v ↔ ∃ s, v = str s ∧ s ∈ names := by
  rw [conformsToAll_assertion (by decide)]
  cases v <;> simp [strings, text?]

@[simp] theorem conformsToAll_minLength (n : Nat) :
    conformsToAll declared [("minLength", nat n)] v ↔ ∀ s, v = str s → n ≤ s.length := by
  rw [conformsToAll_assertion (by decide)]
  cases v <;> simp [nat, int, text?]

@[simp] theorem conformsToAll_maxLength (n : Nat) :
    conformsToAll declared [("maxLength", nat n)] v ↔ ∀ s, v = str s → s.length ≤ n := by
  rw [conformsToAll_assertion (by decide)]
  cases v <;> simp [nat, int, text?]

@[simp] theorem conformsToAll_minimum (n : Int) :
    conformsToAll declared [("minimum", int n)] v ↔ ∀ m, v = num m → (n : Rat) ≤ m.value := by
  rw [conformsToAll_assertion (by decide), ← Number.value_int n]
  cases v <;> simp [int]

@[simp] theorem conformsToAll_maximum (n : Int) :
    conformsToAll declared [("maximum", int n)] v ↔ ∀ m, v = num m → m.value ≤ (n : Rat) := by
  rw [conformsToAll_assertion (by decide), ← Number.value_int n]
  cases v <;> simp [int]

@[simp] theorem conformsToAll_maxItems (n : Nat) :
    conformsToAll declared [("maxItems", nat n)] v ↔
      ∀ items, v = arr items → items.length ≤ n := by
  rw [conformsToAll_assertion (by decide)]
  cases v <;> simp [nat, int, items?]

@[simp] theorem conformsToAll_items : conformsToAll declared [("items", schema)] v ↔
    ∀ items, v = arr items → ∀ item ∈ items, conforms schema item := by
  cases v <;> simp [conformsToAll, items?]

@[simp] theorem conformsToAll_required : conformsToAll declared [("required", strings names)] v ↔
    ∀ fields, v = obj fields → ∀ name ∈ names, (fields.lookup name).isSome := by
  rw [conformsToAll_assertion (by decide)]
  cases v <;> simp [strings, text?, fields?]

@[simp] theorem conformsToAll_additionalProperties :
    conformsToAll declared [("additionalProperties", bool false)] v ↔
      ∀ fields, v = obj fields → ∀ f ∈ fields, f.1 ∈ declared := by
  cases v <;> simp [conformsToAll, conforms, fields?]

theorem conformsToEach_iff : conformsToEach properties fields ↔
    ∀ p ∈ properties, ∀ w, fields.lookup p.1 = some w → conforms p.2 w := by
  induction properties with
  | nil => simp [conformsToEach]
  | cons p properties ih =>
    obtain ⟨name, schema⟩ := p
    rw [conformsToEach, Bool.and_eq_true, ih, List.forall_mem_cons, Option.all_eq_true]

@[simp] theorem conformsToAll_properties (h : (properties.map Prod.fst).Nodup) :
    conformsToAll declared [("properties", object properties)] v ↔ ∀ fields, v = obj fields →
      ∀ p ∈ properties, ∀ w, fields.lookup p.1 = some w → conforms p.2 w := by
  have hproperties (fields : List (String × Json)) :
      conformsToEach (Keyed.ofList properties) fields ↔
        ∀ p ∈ properties, ∀ w, fields.lookup p.1 = some w → conforms p.2 w := by
    rw [conformsToEach_iff]
    exact forall_congr' fun p => imp_congr_left (Keyed.perm_ofList h).mem_iff
  cases v <;> simp [conformsToAll, fields?, object, conformsToProperties, hproperties]

end

end Json

end ArchChange
