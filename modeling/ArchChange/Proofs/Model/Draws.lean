import ArchChange.Proofs.Model.Connections
import ArchChange.Proofs.Model.Frame
/-!
Connections drawn one by one. A model from which nothing but connections was drawn differs from
the one before in what its views have at the end of their connections, and in the last number.
-/
namespace ArchChange

/-- The view with more connections. -/
def View.drawAll (cs : List Connection) (v : View) : View :=
  { v with connections := v.connections ++ cs }

/-- Of the connections drawn on some views, those on one of them. -/
def drawnOn (view : String) (ds : List (String × Connection)) : List Connection :=
  (ds.filter fun d => d.1 = view).map Prod.snd

theorem drawnOn_append (view : String) (ds es : List (String × Connection)) :
    drawnOn view (ds ++ es) = drawnOn view ds ++ drawnOn view es := by
  rw [drawnOn, List.filter_append, List.map_append]
  rfl

theorem drawnOn_self (view : String) (cs : List Connection) :
    drawnOn view (cs.map fun c => (view, c)) = cs := by
  simp [drawnOn, List.filter_map, Function.comp_def]

theorem drawnOn_eq_nil {view : String} {ds : List (String × Connection)}
    (h : ∀ d ∈ ds, d.1 ≠ view) : drawnOn view ds = [] := by
  rw [drawnOn, List.filter_eq_nil_iff.mpr fun d hd => by simpa using h d hd, List.map_nil]

/-- Where keys are distinct, the item changed first is the only one with its key. -/
theorem modifyFirst_eq_map {α : Type} {key : α → String} {change : α → α} {id : String}
    {l : List α} (h : (l.map key).Nodup) : modifyFirst (fun a => key a == id) change l =
      l.map fun a => if key a = id then change a else a := by
  induction l with
  | nil => rfl
  | cons a l ih =>
    obtain ⟨hnot, hrest⟩ := List.nodup_cons.mp h
    by_cases ha : key a = id
    · have hl : (l.map fun b => if key b = id then change b else b) = l := by
        refine (List.map_congr_left fun b hb => if_neg ?_).trans (List.map_id l)
        rintro hb'
        exact hnot (ha.trans hb'.symm ▸ List.mem_map_of_mem hb)
      simp [modifyFirst, ha, hl]
    · simp [modifyFirst, ha, ih hrest]

namespace Model

/-- From the first model to the second connections were drawn, in order, each on a view that was
there and under an id that was not. -/
inductive Draws (m : Model) : List (String × Connection) → Model → Prop
  | refl : Draws m [] m
  | tail {m' : Model} {ds : List (String × Connection)} {view : String} {c : Connection} (n : Nat)
      (before : Draws m ds m') (hview : view ∈ m'.viewIds) (hnew : c.id ∉ m'.ids) :
      Draws m (ds ++ [(view, c)]) { m'.modifyView view (View.draw c) with nextId := n }

variable {m m' m'' : Model} {ds es : List (String × Connection)} {view : String}

theorem Draws.trans (h : Draws m ds m') (h' : Draws m' es m'') : Draws m (ds ++ es) m'' := by
  induction h' with
  | refl => rwa [List.append_nil]
  | tail n _ hview hnew ih =>
    rw [← List.append_assoc]
    exact .tail n ih hview hnew

theorem Draws.eq_of_nil (h : Draws m [] m') : m' = m := by
  generalize hds : ([] : List (String × Connection)) = ds at h
  cases h with
  | refl => rfl
  | tail => simp at hds

/-- Only views and the last number change. -/
theorem Draws.eq (h : Draws m ds m') :
    m' = { m with views := m'.views, nextId := m'.nextId } := by
  induction h with
  | refl => rfl
  | tail n _ _ _ ih =>
    rw [ih]
    rfl

theorem Draws.relationships (h : Draws m ds m') : m'.relationships = m.relationships := by
  rw [h.eq]

theorem Draws.viewIds (h : Draws m ds m') : m'.viewIds = m.viewIds := by
  induction h with
  | refl => rfl
  | @tail m' ds view c n _ _ _ ih =>
    have hsame : SameEntities m' (m'.modifyView view (View.draw c)) :=
      sameEntities_modifyView fun _ => rfl
    exact hsame.views.trans ih

/-- The ids of the connections come on top of those in the model. -/
theorem Draws.ids (h : Draws m ds m') :
    m'.ids.Perm (ds.map (fun d => d.2.id) ++ m.ids) := by
  induction h with
  | refl => exact List.Perm.refl _
  | @tail m' ds view c n _ hview hnew ih =>
    have hdrawn : (m'.modifyView view (View.draw c)).ids.Perm (c.id :: m'.ids) :=
      ids_modifyView hview (fun _ => rfl) (View.drawnIds_draw c)
    refine hdrawn.trans ?_
    rw [List.map_append, List.append_assoc]
    exact (ih.append_left [c.id]).trans (List.perm_append_comm_assoc _ _ _)

/-- The new ids are distinct, and none was in use. -/
theorem Draws.fresh (h : Draws m ds m') :
    (ds.map fun d => d.2.id).Nodup ∧ ∀ d ∈ ds, d.2.id ∉ m.ids := by
  induction h with
  | refl => simp
  | @tail m' ds view c n before _ hnew ih =>
    have hids : c.id ∉ ds.map (fun d => d.2.id) ++ m.ids := fun hmem =>
      hnew (before.ids.mem_iff.mpr hmem)
    rw [List.mem_append, not_or] at hids
    constructor
    · rw [List.map_append, List.nodup_append]
      refine ⟨ih.1, List.nodup_singleton _, ?_⟩
      rintro x hx _ hy rfl
      exact hids.1 (by simpa [List.mem_singleton.mp hy] using hx)
    · intro d hd
      rcases List.mem_append.mp hd with hd | hd
      · exact ih.2 d hd
      · rw [List.mem_singleton.mp hd]
        exact hids.2

theorem Draws.mem_viewIds (h : Draws m ds m') : ∀ d ∈ ds, d.1 ∈ m.viewIds := by
  induction h with
  | refl => simp
  | tail n before hview _ ih =>
    intro d hd
    rcases List.mem_append.mp hd with hd | hd
    · exact ih d hd
    · rw [List.mem_singleton.mp hd, ← before.viewIds]
      exact hview

/-- The views together have the new connections and the old ones. -/
theorem Draws.connections (h : Draws m ds m') : (m'.views.flatMap View.connections).Perm
    (ds.map Prod.snd ++ m.views.flatMap View.connections) := by
  induction h with
  | refl => exact List.Perm.refl _
  | @tail m' ds view c n _ hview _ ih =>
    have hdrawn : ((m'.modifyView view (View.draw c)).views.flatMap View.connections).Perm
        ([c] ++ m'.views.flatMap View.connections) :=
      flatMap_modifyFirst (fun _ => List.perm_append_comm) (exists_view_of_mem hview)
    refine hdrawn.trans ?_
    rw [List.map_append, List.append_assoc]
    exact (ih.append_left [c]).trans (List.perm_append_comm_assoc _ _ _)

/-- The view that an id stands for has the connections drawn under the id at the end. -/
theorem Draws.view? (h : Draws m ds m') (view : String) :
    m'.view? view = (m.view? view).map (View.drawAll (drawnOn view ds)) := by
  induction h with
  | refl =>
    have hid : View.drawAll (drawnOn view []) = id := by
      funext v
      simp [View.drawAll, drawnOn]
    rw [hid, Option.map_id, id]
  | @tail m' ds other c n _ _ _ ih =>
    by_cases he : view = other
    · subst he
      have hdrawn : (m'.modifyView view (View.draw c)).view? view =
          (m'.view? view).map (View.draw c) := view?_modifyView fun _ => rfl
      have hall : View.draw c ∘ View.drawAll (drawnOn view ds) =
          View.drawAll (drawnOn view (ds ++ [(view, c)])) := by
        funext v
        simp [View.draw, View.drawAll, drawnOn, List.append_assoc]
      rw [← hall, ← Option.map_map, ← ih]
      exact hdrawn
    · have hid : ∀ v : View, (v.draw c).id = v.id := fun _ => rfl
      have hother : (m'.modifyView other (View.draw c)).view? view = m'.view? view :=
        find?_modifyFirst_of_ne hid he m'.views
      have hsame : drawnOn view (ds ++ [(other, c)]) = drawnOn view ds := by
        simp [drawnOn, Ne.symm he]
      rw [hsame, ← ih]
      exact hother

/-- Each view has its old connections and then those drawn on it. -/
theorem Draws.views (h : Draws m ds m') (hm : m.viewIds.Nodup) :
    m'.views = m.views.map fun v => v.drawAll (drawnOn v.id ds) := by
  induction h with
  | refl => simp [View.drawAll, drawnOn]
  | @tail m' ds view c n before _ _ ih =>
    have hids : (m'.views.map View.id).Nodup := by
      rw [← before.viewIds] at hm
      exact hm
    have hdrawn : (m'.modifyView view (View.draw c)).views =
        m'.views.map fun v => if v.id = view then v.draw c else v := modifyFirst_eq_map hids
    refine hdrawn.trans ?_
    rw [ih, List.map_map]
    apply List.map_congr_left
    intro v _
    -- distinct ids make the first view with the id of the connection the only one
    by_cases hv : v.id = view
    · simp [View.drawAll, View.draw, drawnOn, hv]
    · simp [View.drawAll, drawnOn, hv, Ne.symm hv]

/-- A relationship is drawn between any two visuals of a view. -/
theorem connectInView_draws {v : View} {relationship source target : String}
    (hr : relationship ∈ m.relationshipIds) (hv : m.view? view = some v)
    (hsource : source ∈ v.childIds) (htarget : target ∈ v.childIds) :
    ∃ id m', connectInView view relationship source target m = (.ok id, m') ∧
      Draws m [(view, ⟨id, relationship, source, target⟩)] m' := by
  have hview : view ∈ m.viewIds := view?_isSome_iff.mp (Option.isSome_of_eq_some hv)
  refine ⟨_, _, connectInView_of_mem hr hv hsource htarget, ?_⟩
  exact .tail _ .refl hview (allocate_not_mem m "connection")

end Model

end ArchChange
