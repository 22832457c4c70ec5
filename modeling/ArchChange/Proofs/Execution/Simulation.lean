import ArchChange.Proofs.Execution.Preservation
import ArchChange.Proofs.Validation.Labels
import ArchChange.Proofs.Validation.Tables
/-!
The executor keeps pace with the validator. The validator judges a plan on the model as it was;
meanwhile the executor changes it. Yet what the tables take for undeleted is there: an entity of
the old model, unchanged in kind, or what a reference stands for, each under an id of its own.
-/
namespace ArchChange

namespace Model

/-- The class of the entity with an id. -/
def class? (m : Model) (id : String) : Option EntityClass :=
  (m.kind? id).map EntityKind.entityClass

variable {m : Model} {id : String}

theorem mem_entityIds_of_class? {c : EntityClass} (h : m.class? id = some c) :
    id ∈ m.entityIds := by
  obtain ⟨kind, hk, -⟩ := Option.map_eq_some_iff.mp h
  rw [← kind?_isSome_iff, hk]
  rfl

theorem mem_elementIds_of_class? (h : m.class? id = some .element) : id ∈ m.elementIds := by
  obtain ⟨kind, hk, hc⟩ := Option.map_eq_some_iff.mp h
  cases kind with
  | element type => exact mem_elementIds_iff.mpr ⟨type, hk⟩
  | relationship type => cases hc
  | view => cases hc

theorem mem_viewIds_of_class? (h : m.class? id = some .view) : id ∈ m.viewIds := by
  obtain ⟨kind, hk, hc⟩ := Option.map_eq_some_iff.mp h
  cases kind with
  | element type => cases hc
  | relationship type => cases hc
  | view => exact kind?_eq_view hk

theorem WellFormed.class?_of_mem_relationshipIds (hm : m.WellFormed)
    (h : id ∈ m.relationshipIds) : m.class? id = some .relationship := by
  obtain ⟨type, hk⟩ := hm.mem_relationshipIds_iff.mp h
  rw [class?, hk]
  rfl

theorem WellFormed.mem_endpointIds_of_class? (hm : m.WellFormed) {c : EntityClass}
    (h : m.class? id = some c) (hc : c ≠ .view) : id ∈ m.endpointIds := by
  obtain ⟨kind, hk, rfl⟩ := Option.map_eq_some_iff.mp h
  refine hm.mem_endpointIds_iff.mpr ⟨kind, hk, ?_⟩
  rintro rfl
  exact hc rfl

theorem Stays.entityIds_subset {m' : Model} (h : Stays m m') : m.entityIds ⊆ m'.entityIds := by
  intro x hx
  rwa [← kind?_isSome_iff, h.kind?, kind?_isSome_iff]

theorem Gains.entityIds_subset {m' : Model} {kind : EntityKind} (h : Gains m id kind m') :
    m.entityIds ⊆ m'.entityIds := by
  intro x hx
  rw [← kind?_isSome_iff, h.kind?]
  split
  · rfl
  · rwa [kind?_isSome_iff]

theorem Loses.mem_entityIds_iff {m' : Model} {l : List String} (h : Loses m l m') (x : String) :
    x ∈ m'.entityIds ↔ x ∈ m.entityIds ∧ x ∉ l := by
  rw [← kind?_isSome_iff, h.eq, kind?_eraseAll, ← kind?_isSome_iff]
  split
  · next hx => simp [hx]
  · next hx => simp [hx]

/-- A new id belonged to no entity. -/
theorem Gains.ne_of_mem {m' : Model} {kind : EntityKind} {x : String} (h : Gains m id kind m')
    (hx : x ∈ m.entityIds) : x ≠ id := by
  rintro rfl
  exact h.fresh (mem_ids_of_mem_entityIds hx)

theorem Gains.class?_eq {m' : Model} {kind : EntityKind} (h : Gains m id kind m') (x : String) :
    m'.class? x = if x = id then some kind.entityClass else m.class? x := by
  rw [class?, h.kind?]
  split <;> rfl

theorem mem_entityIds_of_link {l : String × RelationshipType × String × String}
    (h : l ∈ m.links) : l.1 ∈ m.entityIds := by
  refine mem_entityIds_of_relationship ?_
  rw [relationshipIds_eq_links]
  exact List.mem_map_of_mem h

theorem attached_iff_links {r : String} :
    m.Attached r id ↔ ∃ l ∈ m.links, l.1 = r ∧ (l.2.2.1 = id ∨ l.2.2.2 = id) := by
  rw [Attached, attached_eq_links]
  simp only [List.mem_map, List.mem_filter, Bool.or_eq_true, beq_iff_eq]
  constructor
  · rintro ⟨l, ⟨hl, he⟩, rfl⟩
    exact ⟨l, hl, rfl, he⟩
  · rintro ⟨l, hl, rfl, he⟩
    exact ⟨l, ⟨hl, he⟩, rfl⟩

end Model

namespace Validation

/-- The reference is declared for something of the class. -/
def Tables.Refers (t : Tables) (ref : String) : EntityClass → Prop
  | .element => (t.elementRefs.lookup ref).isSome
  | .view => ref ∈ t.viewRefs
  | .relationship => False

/-- The reference that an action declares for something of the class. -/
def declares? (action : Action) : EntityClass → Option String
  | .element => action.elementRef?
  | .view => action.viewRef?
  | .relationship => none

theorem declares?_eq_none {action : Action} (helement : action.elementRef? = none)
    (hview : action.viewRef? = none) (c : EntityClass) : declares? action c = none := by
  cases c with
  | element => exact helement
  | view => exact hview
  | relationship => rfl

theorem Tables.Advances.refers {σ : Type} [EntityLookup σ] {store : σ} {t t' : Tables}
    {action : Action} (h : t.Advances store action t') (ref : String) (c : EntityClass) :
    t'.Refers ref c ↔ declares? action c = some ref ∨ t.Refers ref c := by
  cases c with
  | element => exact h.elementRefs ref
  | view => exact h.viewRefs ref
  | relationship => simp [Tables.Refers, declares?]

theorem Tables.Advances.not_isDeleted {σ : Type} [EntityLookup σ] {store : σ} {t t' : Tables}
    {action : Action} (h : t.Advances store action t') {id : String} (hid : ¬ t'.isDeleted id) :
    ¬ t.isDeleted id :=
  fun hd => hid ((h.deleted id).mpr (Or.inr hd))

/-- What names no relationship and is no reference is the id of none. -/
theorem Resolves.not_mem_relationshipIds {m : Model} {scope : Option Scope} {t : Tables}
    {id : String} (hr : Resolves m scope t (· ≠ .relationship) id) (hm : m.WellFormed)
    (hd : ¬ t.declares id) : id ∉ m.relationshipIds := by
  intro hrelationship
  obtain ⟨-, c, hn, hc⟩ := hr
  rw [Tables.declares_iff, not_or] at hd
  cases hn with
  | elementRef hl => exact hd.1 hl
  | viewRef hl hv => exact hd.2 hv
  | live e hnot he hs =>
    obtain ⟨type, hkind⟩ := hm.mem_relationshipIds_iff.mp hrelationship
    have hentity : m.entity? id = some e := he
    rw [Model.kind?, hentity, Option.map_some] at hkind
    rw [Option.some.inj hkind] at hc
    exact hc rfl

end Validation

namespace Execution

open Validation

/-- The references to things of a class with their ids. -/
def Run.refs (run : Run Model) : EntityClass → List (String × String)
  | .element => run.elementRefs
  | .view => run.viewRefs
  | .relationship => []

/-- The run in its store has kept what the tables take for undeleted, where `gone` holds of the
ids of the old model that have been deleted. -/
structure Tracks (m : Model) (t : Tables) (run : Run Model) (gone : String → Prop) : Prop where
  wellFormed : run.store.WellFormed
  folders : Folder.bareIn run.store.folders = Folder.bareIn m.folders
  deleted : ∀ x, gone x → t.isDeleted x
  kept : ∀ x ∈ m.entityIds, ¬ gone x → run.store.kind? x = m.kind? x
  links : ∀ l, l.1 ∈ m.entityIds → ¬ gone l.1 → (l ∈ run.store.links ↔ l ∈ m.links)
  closed : ∀ l ∈ m.links, ¬ gone l.1 → ¬ gone l.2.2.1 ∧ ¬ gone l.2.2.2
  refers : ∀ ref c, t.Refers ref c ↔ ((run.refs c).lookup ref).isSome
  /-- What a reference stands for is of its class and new to the old model. -/
  stands : ∀ c ref id, (run.refs c).lookup ref = some id → ¬ t.isDeleted ref →
    run.store.class? id = some c ∧ (id ∈ m.entityIds → gone id)
  injective : ∀ c ref ref' id, (run.refs c).lookup ref = some id →
    (run.refs c).lookup ref' = some id → ¬ t.isDeleted ref → ¬ t.isDeleted ref' → ref = ref'

/-- What is gone once a run has come to another: what was gone before, and what the store lacks
now. -/
def goneLater (m : Model) (gone : String → Prop) (run' : Run Model) (x : String) : Prop :=
  gone x ∨ (x ∈ m.entityIds ∧ x ∉ run'.store.entityIds)

variable {m : Model} {t t' : Tables} {run run' : Run Model} {gone : String → Prop}
  {scope : Option Scope} {id : String}

theorem Tracks.congr {gone' : String → Prop} (h : Tracks m t run gone)
    (hiff : ∀ x, gone' x ↔ gone x) : Tracks m t run gone' := by
  obtain rfl : gone' = gone := funext fun x => propext (hiff x)
  exact h

theorem Tracks.start (hm : m.WellFormed) : Tracks m .empty (.start m) fun _ => False where
  wellFormed := hm
  folders := rfl
  deleted := by simp
  kept := by simp [Run.start]
  links := by simp [Run.start]
  closed := by simp
  refers := by
    intro ref c
    cases c <;> simp [Tables.Refers, Run.refs, Run.start, Tables.empty]
  stands := by
    intro c ref id h
    cases c <;> simp [Run.refs, Run.start] at h
  injective := by
    intro c ref ref' id h
    cases c <;> simp [Run.refs, Run.start] at h

theorem lookup_declared_append (ref : Option String) (id x : String)
    (refs : List (String × String)) : (declared ref id ++ refs).lookup x =
      if ref = some x then some id else refs.lookup x := by
  cases ref with
  | none => simp [declared]
  | some r =>
    by_cases h : r = x
    · simp [declared, h]
    · have hx : (x == r) = false := by simpa using fun he => h he.symm
      simp [declared, List.lookup_cons, hx, h]

namespace Tracks

variable (h : Tracks m t run gone) {action : Action}

include h

theorem mem_of_not_gone {x : String} (hx : x ∈ m.entityIds) (hgone : ¬ gone x) :
    x ∈ run.store.entityIds := by
  rwa [← Model.kind?_isSome_iff, h.kept x hx hgone, Model.kind?_isSome_iff]

/-- Where the store keeps its entities, nothing more is gone. -/
theorem later_of_subset (hkept : run.store.entityIds ⊆ run'.store.entityIds)
    (h' : Tracks m t' run' gone) : Tracks m t' run' (goneLater m gone run') := by
  refine h'.congr fun x => ⟨?_, Or.inl⟩
  rintro (hgone | ⟨hx, hmissing⟩)
  · exact hgone
  · by_contra hgone
    exact hmissing (hkept (h.mem_of_not_gone hx hgone))

/-- What is known about the entities stays known when one comes under a new id. -/
theorem gains {kind : EntityKind} (hg : run.store.Gains id kind run'.store)
    (ht : t.Advances m action t')
    (hr : ∀ c, run'.refs c = declared (declares? action c) id ++ run.refs c)
    (hc : ∀ c ref, declares? action c = some ref → c = kind.entityClass) :
    Tracks m t' run' (goneLater m gone run') := by
  refine h.later_of_subset hg.entityIds_subset ?_
  have hclass : ∀ x c, run.store.class? x = some c → run'.store.class? x = some c := by
    intro x c hx
    rw [hg.class?_eq, if_neg (hg.ne_of_mem (Model.mem_entityIds_of_class? hx))]
    exact hx
  have hkept : ∀ x ∈ m.entityIds, ¬ gone x → x ≠ id := by
    intro x hx hgone
    exact hg.ne_of_mem (h.mem_of_not_gone hx hgone)
  have hmono : ∀ {x}, ¬ t'.isDeleted x → ¬ t.isDeleted x := ht.not_isDeleted
  refine ⟨hg.wellFormed, hg.folders.trans h.folders, ?_, ?_, ?_, h.closed, ?_, ?_, ?_⟩
  · intro x hx
    exact (ht.deleted x).mpr (Or.inr (h.deleted x hx))
  · intro x hx hgone
    rw [hg.kind?, if_neg (hkept x hx hgone), h.kept x hx hgone]
  · intro l hl hgone
    obtain ⟨new, hlinks, hid⟩ := hg.links
    have hnot : l ∉ new := fun hmem => hkept l.1 hl hgone (hid l hmem)
    rw [hlinks, List.mem_append, ← h.links l hl hgone]
    exact or_iff_left hnot
  · intro ref c
    rw [ht.refers, h.refers, hr, lookup_declared_append]
    split
    · next he => simp [he]
    · next he => simp [he]
  · intro c ref x hx hd
    rw [hr, lookup_declared_append] at hx
    split at hx
    · next he =>
      cases hx
      refine ⟨by rw [hg.class?_eq, if_pos rfl, hc c ref he], ?_⟩
      intro hmem
      by_contra hgone
      exact hkept id hmem hgone rfl
    · obtain ⟨hcx, hgone⟩ := h.stands c ref x hx (hmono hd)
      exact ⟨hclass x c hcx, hgone⟩
  · intro c ref ref' x hx hx' hd hd'
    rw [hr, lookup_declared_append] at hx hx'
    have hold : ∀ {r}, (run.refs c).lookup r = some id → ¬ t'.isDeleted r → False := by
      intro r hl hr
      exact hg.ne_of_mem (Model.mem_entityIds_of_class? (h.stands c r id hl (hmono hr)).1) rfl
    split at hx
    · next he =>
      cases hx
      split at hx'
      · next he' => exact Option.some.inj (he.symm.trans he')
      · exact (hold hx' hd').elim
    · split at hx'
      · cases hx'
        exact (hold hx hd).elim
      · exact h.injective c ref ref' x hx hx' (hmono hd) (hmono hd')

/-- Nothing is lost where the entities stay, even if the tables take more for deleted. -/
theorem stays (hs : run.store.Stays run'.store) (ht : t.Advances m action t')
    (hr : ∀ c, run'.refs c = run.refs c) (hnone : ∀ c, declares? action c = none) :
    Tracks m t' run' (goneLater m gone run') := by
  refine h.later_of_subset hs.entityIds_subset ?_
  refine ⟨hs.wellFormed, hs.folders.trans h.folders, ?_, ?_, ?_, h.closed, ?_, ?_, ?_⟩
  · intro x hx
    exact (ht.deleted x).mpr (Or.inr (h.deleted x hx))
  · intro x hx hgone
    rw [hs.kind?, h.kept x hx hgone]
  · intro l hl hgone
    rw [hs.links, h.links l hl hgone]
  · intro ref c
    rw [ht.refers, h.refers, hr, hnone]
    simp
  · intro c ref x hx hd
    rw [hr] at hx
    rw [Model.class?, hs.kind?]
    exact h.stands c ref x hx (ht.not_isDeleted hd)
  · intro c ref ref' x hx hx' hd hd'
    rw [hr] at hx hx'
    exact h.injective c ref ref' x hx hx' (ht.not_isDeleted hd) (ht.not_isDeleted hd')

/-- What is deleted from the store is gone; it must be deleted in the tables too. -/
theorem loses {l : List String} (hl : run.store.Loses l run'.store) (ht : t.Advances m action t')
    (hr : ∀ c, run'.refs c = run.refs c) (hnone : ∀ c, declares? action c = none)
    (hdeleted : ∀ x ∈ l, x ∈ m.entityIds → ¬ gone x → t'.isDeleted x)
    (hrefs : ∀ c ref x, (run.refs c).lookup ref = some x → ¬ t'.isDeleted ref → x ∉ l) :
    Tracks m t' run' (goneLater m gone run') := by
  have hlater : ∀ x, goneLater m gone run' x ↔ gone x ∨ (x ∈ l ∧ x ∈ m.entityIds) := by
    intro x
    by_cases hgone : gone x
    · simp [goneLater, hgone]
    · simp only [goneLater, hgone, false_or, hl.mem_entityIds_iff]
      constructor
      · rintro ⟨hx, hmissing⟩
        have hstore := h.mem_of_not_gone hx hgone
        exact ⟨by_contra fun hnot => hmissing ⟨hstore, hnot⟩, hx⟩
      · rintro ⟨hx, hmem⟩
        exact ⟨hmem, fun hstore => hstore.2 hx⟩
  refine Tracks.congr ?_ hlater
  have hkind : ∀ x, x ∉ l → run'.store.kind? x = run.store.kind? x := by
    intro x hx
    rw [hl.eq, Model.kind?_eraseAll, if_neg hx]
  have hattached : ∀ r x, x ∈ l → run.store.Attached r x → r ∈ l := by
    intro r x hx hr
    obtain ⟨l₁, l₂, rfl⟩ := List.append_of_mem hx
    exact List.mem_append_left _ (hl.deletable.ordered l₁ x l₂ rfl r hr)
  refine ⟨hl.wellFormed h.wellFormed, ?_, ?_, ?_, ?_, ?_, ?_, ?_, ?_⟩
  · rw [hl.eq, Model.bareIn_eraseAll, h.folders]
  · rintro x (hx | ⟨hx, hmem⟩)
    · exact (ht.deleted x).mpr (Or.inr (h.deleted x hx))
    · by_cases hgone : gone x
      · exact (ht.deleted x).mpr (Or.inr (h.deleted x hgone))
      · exact hdeleted x hx hmem hgone
  · intro x hx hgone
    rw [not_or] at hgone
    rw [hkind x fun hmem => hgone.2 ⟨hmem, hx⟩, h.kept x hx hgone.1]
  · intro k hk hgone
    rw [not_or] at hgone
    have hnot : k.1 ∉ l := fun hmem => hgone.2 ⟨hmem, hk⟩
    rw [hl.eq, Model.links_eraseAll, List.mem_filter, ← h.links k hk hgone.1]
    simp [hnot]
  · intro k hk hgone
    rw [not_or] at hgone
    obtain ⟨hs, htarget⟩ := h.closed k hk hgone.1
    have hmem : k.1 ∈ m.entityIds := Model.mem_entityIds_of_link hk
    have hstore : k ∈ run.store.links := (h.links k hmem hgone.1).mpr hk
    have hout : ∀ x, run.store.Attached k.1 x → x ∉ l := by
      intro x hx hxl
      exact hgone.2 ⟨hattached k.1 x hxl hx, hmem⟩
    refine ⟨not_or.mpr ⟨hs, ?_⟩, not_or.mpr ⟨htarget, ?_⟩⟩
    · rintro ⟨hx, -⟩
      exact hout _ (Model.attached_iff_links.mpr ⟨k, hstore, rfl, Or.inl rfl⟩) hx
    · rintro ⟨hx, -⟩
      exact hout _ (Model.attached_iff_links.mpr ⟨k, hstore, rfl, Or.inr rfl⟩) hx
  · intro ref c
    rw [ht.refers, h.refers, hr, hnone]
    simp
  · intro c ref x hx hd
    rw [hr] at hx
    obtain ⟨hclass, hgone⟩ := h.stands c ref x hx (ht.not_isDeleted hd)
    refine ⟨?_, fun hmem => Or.inl (hgone hmem)⟩
    rw [Model.class?, hkind x (hrefs c ref x hx hd)]
    exact hclass
  · intro c ref ref' x hx hx' hd hd'
    rw [hr] at hx hx'
    exact h.injective c ref ref' x hx hx' (ht.not_isDeleted hd) (ht.not_isDeleted hd')

/-- In the store only what was attached in the old model leads from there to anything. -/
theorem transGen (hm : m.WellFormed) {x y : String} (hx : x ∈ m.entityIds) (hgone : ¬ gone x)
    (hxy : Relation.TransGen run.store.Attached x y) :
    y ∈ m.entityIds ∧ ¬ gone y ∧ Relation.TransGen m.Attached x y := by
  have hstep : ∀ {a b}, a ∈ m.entityIds → ¬ gone a → run.store.Attached a b →
      b ∈ m.entityIds ∧ ¬ gone b ∧ m.Attached a b := by
    intro a b ha hga hab
    obtain ⟨k, hk, rfl, hends⟩ := Model.attached_iff_links.mp hab
    have hkm : k ∈ m.links := (h.links k ha hga).mp hk
    have hattached : m.Attached k.1 b := Model.attached_iff_links.mpr ⟨k, hkm, rfl, hends⟩
    refine ⟨List.mem_append_left _ (hm.mem_endpointIds_of_attached hattached), ?_, hattached⟩
    obtain ⟨hs, ht⟩ := h.closed k hkm hga
    rcases hends with rfl | rfl
    · exact hs
    · exact ht
  induction hxy with
  | single hxb =>
    obtain ⟨hb, hgb, hattached⟩ := hstep hx hgone hxb
    exact ⟨hb, hgb, .single hattached⟩
  | tail _ hbc ih =>
    obtain ⟨hb, hgb, htrans⟩ := ih
    obtain ⟨hc, hgc, hattached⟩ := hstep hb hgb hbc
    exact ⟨hc, hgc, htrans.tail hattached⟩

/-- What led to an entity in the old model still does if it is there. -/
theorem transGen_store {x y : String} (hgone : ¬ gone x)
    (hxy : Relation.TransGen m.Attached x y) :
    ¬ gone y ∧ Relation.TransGen run.store.Attached x y := by
  have hstep : ∀ {a b}, ¬ gone a → m.Attached a b → ¬ gone b ∧ run.store.Attached a b := by
    intro a b hga hab
    obtain ⟨l, hl, rfl, hends⟩ := Model.attached_iff_links.mp hab
    have hstore : l ∈ run.store.links :=
      (h.links l (Model.mem_entityIds_of_link hl) hga).mpr hl
    refine ⟨?_, Model.attached_iff_links.mpr ⟨l, hstore, rfl, hends⟩⟩
    obtain ⟨hs, ht⟩ := h.closed l hl hga
    rcases hends with rfl | rfl
    · exact hs
    · exact ht
  induction hxy with
  | single hxb =>
    obtain ⟨hb, hattached⟩ := hstep hgone hxb
    exact ⟨hb, .single hattached⟩
  | tail _ hbc ih =>
    obtain ⟨hb, hpath⟩ := ih
    obtain ⟨hc, hattached⟩ := hstep hb hbc
    exact ⟨hc, hpath.tail hattached⟩

end Tracks

end Execution

end ArchChange
