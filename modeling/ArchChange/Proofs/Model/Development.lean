import ArchChange.Proofs.Model.Deletion
import ArchChange.Proofs.Model.Drawing
/-!
How a change develops a model, as far as ids and what they stand for are concerned: it leaves
all as it is, gains one entity under a new id, or loses some entities.
-/
namespace ArchChange.Model

variable {m m' m'' : Model} {id : String} {kind : EntityKind}

/-- The second model has the entities of the first. -/
structure Stays (m m' : Model) : Prop where
  wellFormed : m'.WellFormed
  kind? : ∀ x, m'.kind? x = m.kind? x
  links : m'.links = m.links
  folders : Folder.bareIn m'.folders = Folder.bareIn m.folders

/-- The second model has one entity more than the first, under a new id. -/
structure Gains (m : Model) (id : String) (kind : EntityKind) (m' : Model) : Prop where
  fresh : id ∉ m.ids
  wellFormed : m'.WellFormed
  kind? : ∀ x, m'.kind? x = if x = id then some kind else m.kind? x
  links : ∃ new, m'.links = m.links ++ new ∧ ∀ l ∈ new, l.1 = id
  folders : Folder.bareIn m'.folders = Folder.bareIn m.folders

/-- The second model has the entities of the first but those with the given ids, which could be
deleted in this order. -/
structure Loses (m : Model) (l : List String) (m' : Model) : Prop where
  deletable : m.Deletable l
  eq : m' = m.eraseAll l

theorem Stays.of_sameEntities (h : SameEntities m m') (hm : m'.WellFormed)
    (hb : Folder.bareIn m'.folders = Folder.bareIn m.folders) : Stays m m' :=
  ⟨hm, h.kind?, h.links, hb⟩

theorem Stays.refl (hm : m.WellFormed) : Stays m m :=
  ⟨hm, fun _ => rfl, rfl, rfl⟩

theorem SameShape.stays (h : SameShape m m') (hm : m.WellFormed) : Stays m m' :=
  .of_sameEntities h.toSameEntities (h.wellFormed hm) (by rw [h.folders])

theorem Gains.trans (h : Gains m id kind m') (h' : Stays m' m'') : Gains m id kind m'' where
  fresh := h.fresh
  wellFormed := h'.wellFormed
  kind? x := by rw [h'.kind?, h.kind?]
  links := h'.links ▸ h.links
  folders := h'.folders.trans h.folders

theorem Gains.mem (h : Gains m id kind m') : id ∈ m'.entityIds := by
  rw [← kind?_isSome_iff, h.kind?, if_pos rfl]
  rfl

section

variable (hm : m.WellFormed)

include hm

theorem stays_addToView {view entity : String} (bounds : Bounds) (he : entity ∈ m.elementIds)
    (hv : view ∈ m.viewIds) : Stays m (addToView view entity bounds m).2 := by
  have hfolders : (addToView view entity bounds m).2.folders = m.folders := folders_addToView bounds
  exact .of_sameEntities (sameEntities_addToView bounds he hv) (wellFormed_addToView bounds hm)
    (by rw [hfolders])

theorem stays_moveToFolder {folder entity : String} (h : entity ∈ m.entityIds)
    (hf : folder ∈ Folder.idsIn m.folders) : Stays m (moveToFolder folder entity m).2 := by
  have hw : (moveToFolder folder entity m).2.WellFormed := wellFormed_moveToFolder hm
  rw [moveToFolder_of_mem h hf] at hw ⊢
  refine .of_sameEntities ⟨rfl, rfl, rfl⟩ hw ?_
  rw [Folder.bareIn_fileIn, Folder.bareIn_removeIn]

theorem gains_createElement (type : ElementType) (name : String) :
    Gains m (m.allocate "element").1 (.element type) (createElement type name m).2 where
  fresh := allocate_not_mem m "element"
  wellFormed := wellFormed_createElement hm
  kind? := kind?_createElement
  links := ⟨[], by simp [createElement, Model.links, allocate], by simp⟩
  folders := Folder.bareIn_fileIn _ _ _

theorem gains_createRelationship (type : RelationshipType) {source target : String}
    (name : String) (hs : source ∈ m.endpointIds) (ht : target ∈ m.endpointIds) :
    (createRelationship type source target name m).1 = .ok (m.allocate "relationship").1 ∧
      Gains m (m.allocate "relationship").1 (.relationship type)
        (createRelationship type source target name m).2 := by
  have hs' := hm.endpointError?_eq_none_iff.mpr hs
  have ht' := hm.endpointError?_eq_none_iff.mpr ht
  refine ⟨by rw [createRelationship_of_none type name hs' ht'], ?_⟩
  refine ⟨allocate_not_mem m "relationship",
    wellFormed_createRelationship hm type source target name,
    kind?_createRelationship type name hs' ht', ?_, ?_⟩
  · exact ⟨_, links_createRelationship type name hs' ht', by simp⟩
  · rw [createRelationship_of_none type name hs' ht']
    exact Folder.bareIn_fileIn _ _ _

theorem gains_createView (name : String) :
    Gains m (m.allocate "view").1 .view (createView name m).2 where
  fresh := allocate_not_mem m "view"
  wellFormed := wellFormed_createView hm
  kind? := kind?_createView
  links := ⟨[], by simp [createView, Model.links, allocate], by simp⟩
  folders := Folder.bareIn_fileIn _ _ _

end

theorem Loses.wellFormed {l : List String} (h : Loses m l m') (hm : m.WellFormed) :
    m'.WellFormed := by
  rw [h.eq]
  exact hm.eraseAll h.deletable

end ArchChange.Model
