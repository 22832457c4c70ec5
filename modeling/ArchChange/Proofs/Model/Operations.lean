import ArchChange.Proofs.Model.Deletion
import ArchChange.Proofs.Model.Drawing
/-!
All operations that change a model, as one type. Each keeps a model well formed, and well filed,
whether it succeeds or is refused, and so does any sequence of them.
-/
namespace ArchChange.Model

inductive Operation where
  | createElement (type : ElementType) (name : String)
  | createRelationship (type : RelationshipType) (source target name : String)
  | rename (id name : String)
  | setProperty (id key value : String)
  | removeProperty (id key : String)
  | setDocumentation (id documentation : String)
  | delete (id : String)
  | createView (name : String)
  | addToView (view entity : String) (bounds : Bounds)
  | connectInView (view relationship source target : String)
  | moveToFolder (folder entity : String)
  | addFolder (parent name : String)
deriving DecidableEq, Repr

/-- The model after an operation. -/
def Operation.run (m : Model) : Operation → Model
  | createElement type name => (m.createElement type name).2
  | createRelationship type source target name => (m.createRelationship type source target name).2
  | rename id name => (m.rename id name).2
  | setProperty id key value => (m.setProperty id key value).2
  | removeProperty id key => (m.removeProperty id key).2
  | setDocumentation id documentation => (m.setDocumentation id documentation).2
  | delete id => (m.delete id).2
  | createView name => (m.createView name).2
  | addToView view entity bounds => (m.addToView view entity bounds).2
  | connectInView view relationship source target =>
    (m.connectInView view relationship source target).2
  | moveToFolder folder entity => (m.moveToFolder folder entity).2
  | addFolder parent name => (m.addFolder parent name).2

/-- What an operation answers: the id of what is new, or nothing, or why it is refused. -/
def Operation.answer (m : Model) : Operation → Except StoreError (Option String)
  | createElement type name => (m.createElement type name).1.map some
  | createRelationship type source target name =>
    (m.createRelationship type source target name).1.map some
  | rename id name => (m.rename id name).1.map fun _ => none
  | setProperty id key value => (m.setProperty id key value).1.map fun _ => none
  | removeProperty id key => (m.removeProperty id key).1.map fun _ => none
  | setDocumentation id documentation =>
    (m.setDocumentation id documentation).1.map fun _ => none
  | delete id => (m.delete id).1.map fun _ => none
  | createView name => (m.createView name).1.map some
  | addToView view entity bounds => (m.addToView view entity bounds).1.map some
  | connectInView view relationship source target =>
    (m.connectInView view relationship source target).1.map some
  | moveToFolder folder entity => (m.moveToFolder folder entity).1.map fun _ => none
  | addFolder parent name => (m.addFolder parent name).1.map some

variable {m : Model}

theorem WellFormed.run (hm : m.WellFormed) (op : Operation) : (op.run m).WellFormed := by
  cases op with
  | createElement type name => exact wellFormed_createElement hm
  | createRelationship type source target name =>
    exact wellFormed_createRelationship hm type source target name
  | rename id name => exact ((rename_edits id name).sameShape m).wellFormed hm
  | setProperty id key value => exact ((setProperty_edits id key value).sameShape m).wellFormed hm
  | removeProperty id key => exact ((removeProperty_edits id key).sameShape m).wellFormed hm
  | setDocumentation id documentation =>
    exact ((setDocumentation_edits id documentation).sameShape m).wellFormed hm
  | delete id => exact wellFormed_delete hm
  | createView name => exact wellFormed_createView hm
  | addToView view entity bounds => exact wellFormed_addToView bounds hm
  | connectInView view relationship source target =>
    exact wellFormed_connectInView hm view relationship source target
  | moveToFolder folder entity => exact wellFormed_moveToFolder hm
  | addFolder parent name => exact wellFormed_addFolder hm parent name

theorem WellFiled.filedOnce_run (hm : m.WellFiled) (op : Operation) : (op.run m).FiledOnce := by
  have hw := hm.toWellFormed
  have hf := hm.filedOnce
  cases op with
  | createElement type name => exact filedOnce_createElement hw hf
  | createRelationship type source target name =>
    exact filedOnce_createRelationship hw hf type source target name
  | rename id name => exact ((rename_edits id name).sameShape m).filedOnce hf
  | setProperty id key value => exact ((setProperty_edits id key value).sameShape m).filedOnce hf
  | removeProperty id key => exact ((removeProperty_edits id key).sameShape m).filedOnce hf
  | setDocumentation id documentation =>
    exact ((setDocumentation_edits id documentation).sameShape m).filedOnce hf
  | delete id => exact filedOnce_delete hw hf
  | createView name => exact filedOnce_createView hw hf
  | addToView view entity bounds =>
    exact filedOnce_of_folders_eq (folders_addToView bounds) hf
  | connectInView view relationship source target =>
    exact filedOnce_of_folders_eq (folders_connectInView m view relationship source target) hf
  | moveToFolder folder entity => exact filedOnce_moveToFolder hf
  | addFolder parent name => exact filedOnce_addFolder hf parent name

theorem WellFiled.run (hm : m.WellFiled) (op : Operation) : (op.run m).WellFiled :=
  ⟨hm.toWellFormed.run op, hm.filedOnce_run op⟩

theorem WellFiled.runAll (hm : m.WellFiled) (ops : List Operation) :
    (ops.foldl Operation.run m).WellFiled := by
  induction ops generalizing m with
  | nil => exact hm
  | cons op ops ih => exact ih (hm.run op)

/-! Models that come from one another by operations. -/

/-- The second model comes from the first by operations with the property. -/
def OperatesTo (p : Operation → Prop) : Model → Model → Prop :=
  Relation.ReflTransGen fun m m' => ∃ op, p op ∧ op.run m = m'

namespace OperatesTo

variable {m' m'' : Model} {p q : Operation → Prop}

theorem refl (p : Operation → Prop) (m : Model) : OperatesTo p m m :=
  Relation.ReflTransGen.refl

theorem trans (h : OperatesTo p m m') (h' : OperatesTo p m' m'') : OperatesTo p m m'' :=
  Relation.ReflTransGen.trans h h'

theorem single (op : Operation) (hp : p op) (m : Model) : OperatesTo p m (op.run m) :=
  Relation.ReflTransGen.single ⟨op, hp, rfl⟩

theorem mono (hpq : ∀ op, p op → q op) (h : OperatesTo p m m') : OperatesTo q m m' := by
  refine Relation.ReflTransGen.mono ?_ _ _ h
  rintro a b ⟨op, hp, heq⟩
  exact ⟨op, hpq op hp, heq⟩

theorem wellFormed (h : OperatesTo p m m') (hm : m.WellFormed) : m'.WellFormed := by
  induction h with
  | refl => exact hm
  | tail _ hstep ih =>
    obtain ⟨op, -, rfl⟩ := hstep
    exact ih.run op

theorem wellFiled (h : OperatesTo p m m') (hm : m.WellFiled) : m'.WellFiled := by
  induction h with
  | refl => exact hm
  | tail _ hstep ih =>
    obtain ⟨op, -, rfl⟩ := hstep
    exact ih.run op

end OperatesTo

end ArchChange.Model
