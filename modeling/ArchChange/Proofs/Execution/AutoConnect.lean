import ArchChange.Proofs.Execution.Wiring
/-!
Drawing the relationships of a model on a set of its views. The set is completed in one pass, and
a second pass finds nothing to do.
-/
namespace ArchChange.Execution

open FaultyModel (attempt_cases Refused)

/-! A model that refuses nothing does as its model. -/

section

variable {s : FaultyModel}

/-- No call is going to be refused. -/
def Calm (s : FaultyModel) : Prop :=
  ∀ call n, s.schedule call n = none

theorem Calm.not_refused (hs : Calm s) (t : FaultyModel) : ¬ Refused s t := by
  rintro ⟨call, n, -, -, hn⟩
  rw [hs call n] at hn
  cases hn

theorem Calm.attempt (hs : Calm s) {α : Type} (call : StoreCall) (change : Model.Change α) :
    ∃ s', FaultyModel.attempt call change s = ((change s.model).1, s') ∧ Calm s' ∧
      s'.model = (change s.model).2 := by
  rcases attempt_cases call change s with
    ⟨-, s', -, -, hrefused, -⟩ | ⟨s', hcall, hfollows, -, hmodel⟩
  · exact absurd hrefused (hs.not_refused s')
  · refine ⟨s', hcall, fun c n => ?_, hmodel⟩
    rw [hfollows.schedule]
    exact hs c n

theorem Calm.connectAll (hs : Calm s) (view : String) (children : List Visual)
    (drawn : List String) (added : Nat) (rs : List Relationship) :
    ∃ s', Execution.connectAll view children drawn added rs s =
      ((Execution.connectAll view children drawn added rs s.model).1, s') ∧ Calm s' ∧
      s'.model = (Execution.connectAll view children drawn added rs s.model).2 := by
  induction rs generalizing s added with
  | nil => exact ⟨s, rfl, hs, rfl⟩
  | cons r rs ih =>
    rw [Execution.connectAll, Execution.connectAll]
    split
    · exact ih hs added
    · split
      · next source target _ _ =>
        obtain ⟨s', hcall, hs', hmodel⟩ :=
          hs.attempt .connectInView (Model.connectInView view r.id source target)
        have hcalled : Store.connectInView view r.id source target s =
            ((Store.connectInView view r.id source target s.model).1, s') := hcall
        have hmodel' : s'.model = (Store.connectInView view r.id source target s.model).2 := hmodel
        rw [hcalled]
        rcases hresult : Store.connectInView view r.id source target s.model with ⟨result, m'⟩
        rw [hresult] at hmodel'
        cases result with
        | error error => exact ⟨s', rfl, hs', hmodel'⟩
        | ok id =>
          obtain rfl : s'.model = m' := hmodel'
          exact ih hs' (added + 1)
      · exact ih hs added

theorem Calm.connectView (hs : Calm s) (view : String) (rs : List Relationship) :
    ∃ s', Execution.connectView view rs s = ((Execution.connectView view rs s.model).1, s') ∧
      Calm s' ∧ s'.model = (Execution.connectView view rs s.model).2 := by
  rw [connectView_eq, Execution.connectView]
  obtain ⟨s', hcall, hs', hmodel⟩ :=
    hs.attempt .viewChildren fun m => (m.viewChildren view, m)
  have hcalled : Store.viewChildren view s = (s.model.viewChildren view, s') := hcall
  change s'.model = s.model at hmodel
  cases hv : s.model.view? view with
  | none =>
    simp only [Model.viewChildren, hv] at hcalled
    rw [hcalled]
    exact ⟨s', rfl, hs', hmodel⟩
  | some v =>
    simp only [Model.viewChildren, hv] at hcalled
    obtain ⟨t, hcall', ht, hmodel'⟩ :=
      hs'.attempt .viewConnections fun m => (m.viewConnections view, m)
    have hcalled' : Store.viewConnections view s' = (s'.model.viewConnections view, t) := hcall'
    change t.model = s'.model at hmodel'
    simp only [Model.viewConnections, hmodel, hv] at hcalled'
    simp only [hcalled, hcalled']
    obtain ⟨u, hrun, hu, hmodel''⟩ := ht.connectAll view v.children
      (v.connections.map Connection.relationshipId) 0 rs
    rw [hmodel', hmodel] at hrun hmodel''
    exact ⟨u, hrun, hu, hmodel''⟩

theorem Calm.connectViews (hs : Calm s) (rs : List Relationship) (report : ConnectReport)
    (views : List String) : ∃ s', Execution.connectViews rs report views s =
      ((Execution.connectViews rs report views s.model).1, s') ∧ Calm s' ∧
      s'.model = (Execution.connectViews rs report views s.model).2 := by
  induction views generalizing s report with
  | nil => exact ⟨s, rfl, hs, rfl⟩
  | cons view views ih =>
    obtain ⟨s', hrun, hs', hmodel⟩ := hs.connectView view rs
    rcases hturn : Execution.connectView view rs s.model with ⟨⟨added, failure⟩, m'⟩
    rw [hturn] at hrun hmodel
    obtain rfl : s'.model = m' := hmodel
    rw [Execution.connectViews, Execution.connectViews, hrun, hturn]
    exact ih hs' _

theorem Calm.autoConnect (hs : Calm s) (views : List String) :
    Execution.autoConnect views s.model = ((Execution.autoConnect views s).1,
      (Execution.autoConnect views s).2.model) := by
  obtain ⟨s', hrun, -, hmodel⟩ := hs.connectViews s.model.relationships ⟨0, []⟩ (idSet views)
  have hsame : Execution.autoConnect views s =
      ((Execution.autoConnect views s.model).1, s') := hrun
  rw [hsame]
  exact Prod.ext rfl hmodel.symm

end

/-- A pass over a model on which no call is refused. -/
theorem pass_autoConnect_model (views : List String) (m : Model) :
    ∃ (ds : List (String × Connection)) (failures : List ConnectFailure) (s s' : FaultyModel),
      s.model = m ∧ autoConnect views m = (⟨ds.length, failures⟩, s'.model) ∧ ¬ Refused s s' ∧
      Pass m.relationships (idSet views) s s' failures ds := by
  have hs : Calm ⟨m, fun _ _ => none, fun _ => 0⟩ := fun _ _ => rfl
  obtain ⟨ds, failures, s', hrun, h⟩ := pass_autoConnect views ⟨m, fun _ _ => none, fun _ => 0⟩
  refine ⟨ds, failures, _, s', rfl, ?_, hs.not_refused s', h⟩
  have hmodel := hs.autoConnect views
  rwa [hrun] at hmodel

/-- A view that has got its connections lacks none. -/
theorem undrawn_drawAll {rs : List Relationship} {v : View} {cs : List Connection}
    (h : List.Forall₂ (Joins v) (undrawn rs v) cs) : undrawn rs (v.drawAll cs) = [] := by
  rw [undrawn, List.filter_eq_nil_iff]
  intro r hr hmissing
  simp only [View.drawAll, List.map_append, List.mem_append, not_or, decide_eq_true_eq] at hmissing
  obtain ⟨⟨hold, hnew⟩, hends⟩ := hmissing
  have hundrawn : r ∈ undrawn rs v := List.mem_filter.mpr ⟨hr, by simpa [hold] using hends⟩
  have hids : (undrawn rs v).map Relationship.id = cs.map Connection.relationshipId := by
    rw [← List.forall₂_eq_eq_eq, List.forall₂_map_left_iff, List.forall₂_map_right_iff]
    exact h.imp fun _ _ hjoins => hjoins.relationship.symm
  exact hnew (hids ▸ List.mem_map_of_mem hundrawn)

namespace Pass

variable {rs : List Relationship} {views : List String} {s s' : FaultyModel}
  {failures : List ConnectFailure} {ds : List (String × Connection)} {v : View}

/-- On a view that did not fail all relationships are drawn. -/
theorem forall₂_joins (h : Pass rs views s s' failures ds) (hview : v.id ∈ views)
    (hv : s.model.view? v.id = some v) (hdone : v.id ∉ failures.map ConnectFailure.view) :
    List.Forall₂ (Joins v) (undrawn rs v) (drawnOn v.id ds) := by
  obtain ⟨front, rest, htodo, hfront, hrest⟩ := h.joins v.id hview v hv
  rw [hrest.resolve_right hdone, List.append_nil] at htodo
  rwa [htodo]

/-- Where no call is refused, the views that are there do not fail. -/
theorem done (h : Pass rs views s s' failures ds) (hmade : ¬ Refused s s') {view : String}
    (hview : view ∈ s.model.viewIds) : view ∉ failures.map ConnectFailure.view := by
  intro hfailed
  rw [h.missing hmade, List.map_map, List.mem_map] at hfailed
  obtain ⟨_, hmissing, rfl⟩ := hfailed
  exact absurd hview (by simpa using (List.mem_filter.mp hmissing).2)

/-- Where ids of views are distinct each connection is drawn on one view. -/
theorem perm_flatMap_drawnOn (h : Pass rs views s s' failures ds) (hm : s.model.viewIds.Nodup) :
    (s.model.views.flatMap fun v => drawnOn v.id ds).Perm (ds.map Prod.snd) := by
  have hgained := h.draws.connections
  rw [h.draws.views hm, List.flatMap_map] at hgained
  have hsplit := List.flatMap_append_perm s.model.views View.connections fun v => drawnOn v.id ds
  exact (List.perm_append_left_iff _).mp (hsplit.trans (hgained.trans List.perm_append_comm))

/-- A pass over what a pass has left, where no call is refused in either. -/
theorem again {t t' : FaultyModel} {failures' : List ConnectFailure}
    {ds' : List (String × Connection)} (h : Pass rs views s s' failures ds)
    (h' : Pass rs views t t' failures' ds') (ht : t.model = s'.model) (hmade : ¬ Refused s s')
    (hmade' : ¬ Refused t t') : ds' = [] ∧ failures' = failures := by
  have hids : t.model.viewIds = s.model.viewIds := by rw [ht, h.draws.viewIds]
  refine ⟨?_, by rw [h'.missing hmade', h.missing hmade, hids]⟩
  rw [List.eq_nil_iff_forall_not_mem]
  intro d hd
  -- a connection of the second pass stands for a relationship that the first left undrawn
  have hview : d.1 ∈ s.model.viewIds := hids ▸ h'.draws.mem_viewIds d hd
  obtain ⟨v, hv⟩ := Option.isSome_iff_exists.mp (Model.view?_isSome_iff.mpr hview)
  have hid : v.id = d.1 := (Model.mem_of_view? hv).2
  rw [← hid] at hv hview
  have hon : v.id ∈ views := hid ▸ h'.on_views d hd
  have hv' : t.model.view? v.id = some (v.drawAll (drawnOn v.id ds)) := by
    rw [ht, h.draws.view? v.id, hv, Option.map_some]
  obtain ⟨front, rest, htodo, hfront, -⟩ := h'.joins v.id hon _ hv'
  rw [undrawn_drawAll (h.forall₂_joins hon hv (h.done hmade hview))] at htodo
  obtain rfl := (List.append_eq_nil_iff.mp htodo.symm).1
  have hnone : drawnOn v.id ds' = [] := List.forall₂_nil_left_iff.mp hfront
  have hmem : d.2 ∈ drawnOn v.id ds' :=
    List.mem_map_of_mem (List.mem_filter.mpr ⟨hd, by simp [hid]⟩)
  rw [hnone] at hmem
  cases hmem

end Pass

variable {m : Model}

/-- Drawing the relationships of a model on a set of ids of views. Each id that is not a view's
fails once. Each view in the set gets, after its old connections, one for each relationship that
it lacks while both ends are placed on it, in the order of the relationships, from first visual to
first visual, and under a new id. Nothing else changes but the last number, and doing it again
changes nothing. -/
theorem autoConnect_complete (hm : m.viewIds.Nodup) (views : List String) :
    ∃ (drawn : View → List Connection) (report : ConnectReport) (m' : Model),
      autoConnect views m = (report, m') ∧
      m' = { m with views := m.views.map fun v => v.drawAll (drawn v), nextId := m'.nextId } ∧
      (∀ v ∈ m.views, v.id ∈ views →
        List.Forall₂ (Joins v) (undrawn m.relationships v) (drawn v)) ∧
      (∀ v ∈ m.views, v.id ∉ views → drawn v = []) ∧
      ((m.views.flatMap drawn).map Connection.id).Nodup ∧
      (∀ c ∈ m.views.flatMap drawn, c.id ∉ m.ids) ∧
      report.added = (m.views.flatMap drawn).length ∧
      (report.failures.map ConnectFailure.view).Nodup ∧
      (∀ f, f ∈ report.failures ↔ f.view ∈ views ∧ f.view ∉ m.viewIds ∧
        f = ⟨f.view, .listVisuals, .viewNotFound f.view⟩) ∧
      autoConnect views m' = (⟨0, report.failures⟩, m') := by
  obtain ⟨ds, failures, s, s', rfl, hrun, hmade, h⟩ := pass_autoConnect_model views m
  have hfailures := h.missing hmade
  have hfound : ∀ v ∈ s.model.views, s.model.view? v.id = some v :=
    fun v hv => Model.find?_of_mem hm hv
  have hjoins : ∀ v ∈ s.model.views, v.id ∈ views →
      List.Forall₂ (Joins v) (undrawn s.model.relationships v) (drawnOn v.id ds) :=
    fun v hv hview => h.forall₂_joins (mem_idSet.mpr hview) (hfound v hv)
      (h.done hmade (List.mem_map_of_mem hv))
  have hperm := h.perm_flatMap_drawnOn hm
  refine ⟨fun v => drawnOn v.id ds, _, _, hrun, ?_, hjoins, ?_, ?_, ?_, ?_, ?_, ?_, ?_⟩
  · rw [← h.draws.views hm]
    exact h.draws.eq
  · rintro v - hview
    exact drawnOn_eq_nil fun d hd he => hview (mem_idSet.mp (he ▸ h.on_views d hd))
  · rw [(hperm.map Connection.id).nodup_iff, List.map_map]
    exact h.draws.fresh.1
  · intro c hc
    obtain ⟨d, hd, rfl⟩ := List.mem_map.mp (hperm.mem_iff.mp hc)
    exact h.draws.fresh.2 d hd
  · rw [hperm.length_eq, List.length_map]
  · exact (nodup_idSet views).sublist h.failed
  · intro f
    rw [hfailures]
    constructor
    · intro hf
      obtain ⟨view, hview, rfl⟩ := List.mem_map.mp hf
      obtain ⟨hview, hmissing⟩ := List.mem_filter.mp hview
      exact ⟨mem_idSet.mp hview, by simpa using hmissing, rfl⟩
    · rintro ⟨hview, hmissing, hf⟩
      exact List.mem_map.mpr
        ⟨f.view, List.mem_filter.mpr ⟨mem_idSet.mpr hview, by simpa using hmissing⟩, hf.symm⟩
  · obtain ⟨ds', failures', t, t', ht, hrun', hmade', h'⟩ := pass_autoConnect_model views s'.model
    rw [h.draws.relationships] at h'
    obtain ⟨rfl, rfl⟩ := h.again h' ht hmade hmade'
    rw [hrun', h'.draws.eq_of_nil, ht]
    rfl

/-- A relationship, one from an element to itself and one drawn before, on a view that shows one of
the elements twice; the other view is missing. -/
theorem autoConnect_complete_sample :
    let m : Model := {
      name := "Office"
      elements := [⟨"a", .node, "A", "", .empty⟩, ⟨"b", .node, "B", "", .empty⟩]
      relationships := [⟨"ab", .flow, "", "a", "b", "", .empty⟩,
        ⟨"ba", .flow, "", "b", "a", "", .empty⟩, ⟨"bb", .flow, "", "b", "b", "", .empty⟩]
      views := [⟨"v", "V", "", .empty,
        [⟨"one", "a", ⟨0, 0, 1, 1⟩⟩, ⟨"two", "b", ⟨2, 0, 1, 1⟩⟩, ⟨"three", "a", ⟨4, 0, 1, 1⟩⟩],
        [⟨"old", "ba", "two", "three"⟩]⟩]
      folders := []
      nextId := 7 }
    ∃ report m', m.viewIds.Nodup ∧ autoConnect ["w", "v"] m = (report, m') ∧
      report = ⟨2, [⟨"w", .listVisuals, .viewNotFound "w"⟩]⟩ ∧
      m'.views.map View.connections = [[⟨"old", "ba", "two", "three"⟩,
        ⟨"connection-8", "ab", "one", "two"⟩, ⟨"connection-9", "bb", "two", "two"⟩]] ∧
      autoConnect ["w", "v"] m' = (⟨0, report.failures⟩, m') := by
  intro m
  have hm : m.viewIds.Nodup := by decide
  obtain ⟨drawn, report, m', hrun, -, -, -, -, -, -, -, -, hagain⟩ :=
    autoConnect_complete hm ["w", "v"]
  refine ⟨report, m', hm, hrun, ?_, ?_, hagain⟩
  · have hreport : (autoConnect ["w", "v"] m).1 =
        ⟨2, [⟨"w", .listVisuals, .viewNotFound "w"⟩]⟩ := by decide +kernel
    rwa [hrun] at hreport
  · have hdrawn : (autoConnect ["w", "v"] m).2.views.map View.connections =
        [[⟨"old", "ba", "two", "three"⟩, ⟨"connection-8", "ab", "one", "two"⟩,
          ⟨"connection-9", "bb", "two", "two"⟩]] := by decide +kernel
    rwa [hrun] at hdrawn

end ArchChange.Execution
