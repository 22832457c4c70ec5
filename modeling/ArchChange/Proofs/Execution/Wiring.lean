import ArchChange.Proofs.Execution.Connections
import ArchChange.Proofs.Model.Draws
import ArchChange.Proofs.Model.Faults
/-!
Drawing relationships on views, whatever calls are refused. A view gets connections for the
relationships that it lacks, in their order, up to the first refusal; the next view is begun all
the same.
-/
namespace ArchChange.Execution

open FaultyModel (Follows Refused attempt_cases not_refused_self)
open Model (Draws)

/-- Of some relationships those that a view does not draw although both ends are placed on it. -/
def undrawn (relationships : List Relationship) (v : View) : List Relationship :=
  relationships.filter fun r => r.id ∉ v.connections.map Connection.relationshipId ∧
    r.source ∈ v.children.map Visual.entityId ∧ r.target ∈ v.children.map Visual.entityId

/-- The visual shows the entity on the view, and none before it does. -/
def ShowsFirst (v : View) (visual entity : String) : Prop :=
  ∃ before c after, v.children = before ++ c :: after ∧ c.id = visual ∧ c.entityId = entity ∧
    ∀ d ∈ before, d.entityId ≠ entity

/-- The connection draws the relationship from the first visual of its source to the first of its
target. -/
structure Joins (v : View) (r : Relationship) (c : Connection) : Prop where
  relationship : c.relationshipId = r.id
  source : ShowsFirst v c.sourceVisual r.source
  target : ShowsFirst v c.targetVisual r.target

/-- The connections draw relationships in order, all of them unless they were cut short. -/
def JoinsFront (v : View) (todo : List Relationship) (cut : Prop) (cs : List Connection) : Prop :=
  ∃ front rest, todo = front ++ rest ∧ List.Forall₂ (Joins v) front cs ∧ (rest = [] ∨ cut)

/-- From the first state to the second a view got connections for the relationships to do, until a
call was refused. -/
structure Wires (view : String) (v : View) (todo : List Relationship) (s s' : FaultyModel)
    (failure : Option ConnectFailure) (cs : List Connection) : Prop where
  follows : Follows s s'
  draws : Draws s.model (cs.map fun c => (view, c)) s'.model
  joins : JoinsFront v todo (failure.isSome) cs
  failure_iff : failure.isSome ↔ Refused s s'
  on_view : ∀ f ∈ failure, f.view = view

variable {v : View} {view entity visual : String} {r : Relationship} {rs : List Relationship}
  {s s' t : FaultyModel}

theorem visualOf?_isSome_iff {children : List Visual} :
    (visualOf? children entity).isSome ↔ entity ∈ children.map Visual.entityId := by
  simp [visualOf?, List.find?_isSome]

/-- The first visual is what is looked up. -/
theorem visualOf?_eq_some_iff :
    visualOf? v.children entity = some visual ↔ ShowsFirst v visual entity := by
  rw [visualOf?, Option.map_eq_some_iff]
  constructor
  · rintro ⟨c, hc, hid⟩
    obtain ⟨hshows, before, after, hchildren, hbefore⟩ := List.find?_eq_some_iff_append.mp hc
    exact ⟨before, c, after, hchildren, hid, by simpa using hshows, by simpa using hbefore⟩
  · rintro ⟨before, c, after, hchildren, hid, hshows, hbefore⟩
    refine ⟨c, List.find?_eq_some_iff_append.mpr ⟨?_, before, after, hchildren, ?_⟩, hid⟩
    · simpa using hshows
    · simpa using hbefore

theorem mem_childIds_of_visualOf? (h : visualOf? v.children entity = some visual) :
    visual ∈ v.childIds := by
  obtain ⟨c, hc, rfl, -⟩ := shows_of_visualOf? h
  exact List.mem_map_of_mem hc

theorem JoinsFront.mono {todo : List Relationship} {cut cut' : Prop} {cs : List Connection}
    (h : JoinsFront v todo cut cs) (hcut : cut → cut') : JoinsFront v todo cut' cs := by
  obtain ⟨front, rest, htodo, hfront, hrest⟩ := h
  exact ⟨front, rest, htodo, hfront, hrest.imp_right hcut⟩

theorem Wires.nil (view : String) (v : View) (s : FaultyModel) : Wires view v [] s s none [] where
  follows := .refl s
  draws := .refl
  joins := ⟨[], [], rfl, .nil, Or.inl rfl⟩
  failure_iff := by simp [not_refused_self]
  on_view := by simp

/-- A call is refused before anything was drawn. -/
theorem Wires.refused (hfollows : Follows s s') (hrefused : Refused s s')
    (hmodel : s'.model = s.model) (todo : List Relationship) (stage : ConnectStage)
    (error : StoreError) : Wires view v todo s s' (some ⟨view, stage, error⟩) [] where
  follows := hfollows
  draws := hmodel ▸ .refl
  joins := ⟨[], todo, rfl, .nil, Or.inr rfl⟩
  failure_iff := by simp [hrefused]
  on_view := by simp

/-- A call is made that changes nothing. -/
theorem Wires.read {failure : Option ConnectFailure} {cs : List Connection}
    {todo : List Relationship} (hfollows : Follows s s') (hmade : ¬ Refused s s')
    (hmodel : s'.model = s.model) (h : Wires view v todo s' t failure cs) :
    Wires view v todo s t failure cs where
  follows := hfollows.trans h.follows
  draws := hmodel ▸ h.draws
  joins := h.joins
  failure_iff := by rw [h.failure_iff, hfollows.refused_iff h.follows, or_iff_right hmade]
  on_view := h.on_view

/-- The call for the first relationship is made. -/
theorem Wires.cons {failure : Option ConnectFailure} {c : Connection} {cs : List Connection}
    {todo : List Relationship} (hfollows : Follows s s') (hmade : ¬ Refused s s')
    (hdraws : Draws s.model [(view, c)] s'.model) (hjoins : Joins v r c)
    (h : Wires view v todo s' t failure cs) : Wires view v (r :: todo) s t failure (c :: cs) where
  follows := hfollows.trans h.follows
  draws := hdraws.trans h.draws
  joins := by
    obtain ⟨front, rest, rfl, hfront, hrest⟩ := h.joins
    exact ⟨r :: front, rest, rfl, .cons hjoins hfront, hrest⟩
  failure_iff := by rw [h.failure_iff, hfollows.refused_iff h.follows, or_iff_right hmade]
  on_view := h.on_view

/-! The calls of a turn. -/

theorem viewChildren_cases (view : String) (s : FaultyModel) :
    (∃ error s', Store.viewChildren view s = (.error error, s') ∧ Follows s s' ∧ Refused s s' ∧
      s'.model = s.model) ∨
    ∃ s', Store.viewChildren view s = (s.model.viewChildren view, s') ∧ Follows s s' ∧
      ¬ Refused s s' ∧ s'.model = s.model :=
  attempt_cases .viewChildren (fun m => (m.viewChildren view, m)) s

theorem viewConnections_cases (view : String) (s : FaultyModel) :
    (∃ error s', Store.viewConnections view s = (.error error, s') ∧ Follows s s' ∧ Refused s s' ∧
      s'.model = s.model) ∨
    ∃ s', Store.viewConnections view s = (s.model.viewConnections view, s') ∧ Follows s s' ∧
      ¬ Refused s s' ∧ s'.model = s.model :=
  attempt_cases .viewConnections (fun m => (m.viewConnections view, m)) s

/-- A call for a connection between visuals of a view is refused or draws it. -/
theorem connectInView_cases {relationship source target : String}
    (hr : relationship ∈ s.model.relationshipIds) (hv : s.model.view? view = some v)
    (hsource : source ∈ v.childIds) (htarget : target ∈ v.childIds) :
    (∃ error s', Store.connectInView view relationship source target s = (.error error, s') ∧
      Follows s s' ∧ Refused s s' ∧ s'.model = s.model) ∨
    ∃ id s', Store.connectInView view relationship source target s = (.ok id, s') ∧
      Follows s s' ∧ ¬ Refused s s' ∧
      Draws s.model [(view, ⟨id, relationship, source, target⟩)] s'.model := by
  rcases attempt_cases .connectInView (Model.connectInView view relationship source target) s with
    hrefused | ⟨s', hcall, hfollows, hmade, hmodel⟩
  · exact Or.inl hrefused
  · obtain ⟨id, m', hok, hdraws⟩ := Model.connectInView_draws hr hv hsource htarget
    rw [hok] at hcall hmodel
    exact Or.inr ⟨id, s', hcall, hfollows, hmade, hmodel ▸ hdraws⟩

/-! What is left to do. -/

theorem undrawn_cons_of_drawn (h : r.id ∈ v.connections.map Connection.relationshipId) :
    undrawn (r :: rs) v = undrawn rs v :=
  List.filter_cons_of_neg (by simp [h])

theorem undrawn_cons_of_not_placed (h : ¬ (r.source ∈ v.children.map Visual.entityId ∧
    r.target ∈ v.children.map Visual.entityId)) : undrawn (r :: rs) v = undrawn rs v :=
  List.filter_cons_of_neg (by rw [decide_eq_true_eq]; exact fun hr => h hr.2)

theorem undrawn_cons (hdrawn : r.id ∉ v.connections.map Connection.relationshipId)
    (hsource : visualOf? v.children r.source = some visual)
    (htarget : (visualOf? v.children r.target).isSome) :
    undrawn (r :: rs) v = r :: undrawn rs v := by
  have hplaced : r.source ∈ v.children.map Visual.entityId :=
    visualOf?_isSome_iff.mp (Option.isSome_of_eq_some hsource)
  exact List.filter_cons_of_pos (decide_eq_true ⟨hdrawn, hplaced, visualOf?_isSome_iff.mp htarget⟩)

/-- Going through relationships with what a view showed at the start. -/
theorem wires_connectAll {w : View} (hw : s.model.view? view = some w)
    (hchildren : w.children = v.children) (hrs : ∀ r ∈ rs, r.id ∈ s.model.relationshipIds)
    (added : Nat) : ∃ cs failure s',
      connectAll view v.children (v.connections.map Connection.relationshipId) added rs s =
        ((added + cs.length, failure), s') ∧
      Wires view v (undrawn rs v) s s' failure cs := by
  -- the view grows under the loop, which still asks the lists that were read before it
  induction rs generalizing s w added with
  | nil => exact ⟨[], none, s, rfl, .nil view v s⟩
  | cons r rs ih =>
    obtain ⟨hr, hrest⟩ := List.forall_mem_cons.mp hrs
    rw [connectAll]
    by_cases hdrawn : r.id ∈ v.connections.map Connection.relationshipId
    · rw [if_pos (List.contains_iff_mem.mpr hdrawn), undrawn_cons_of_drawn hdrawn]
      exact ih hw hchildren hrest added
    · rw [if_neg (mt List.contains_iff_mem.mp hdrawn)]
      split
      · next source target hsource htarget =>
        rw [undrawn_cons hdrawn hsource (Option.isSome_of_eq_some htarget)]
        have hids : w.childIds = v.childIds := congrArg (List.map Visual.id) hchildren
        rcases connectInView_cases hr hw (hids ▸ mem_childIds_of_visualOf? hsource)
          (hids ▸ mem_childIds_of_visualOf? htarget) with
          ⟨error, s', hcall, hfollows, hrefused, hmodel⟩ |
          ⟨id, s', hcall, hfollows, hmade, hdraws⟩
        · rw [hcall]
          exact ⟨[], _, s', rfl, .refused hfollows hrefused hmodel _ _ _⟩
        · have hw' := (hdraws.view? view).trans (congrArg _ hw)
          have hrest' : ∀ r ∈ rs, r.id ∈ s'.model.relationshipIds := by
            rwa [Model.relationshipIds, hdraws.relationships]
          obtain ⟨cs, failure, t, hrun, hwires⟩ := ih hw' hchildren hrest' (added + 1)
          rw [hcall]
          refine ⟨⟨id, r.id, source, target⟩ :: cs, failure, t, ?_,
            hwires.cons hfollows hmade hdraws
              ⟨rfl, visualOf?_eq_some_iff.mp hsource, visualOf?_eq_some_iff.mp htarget⟩⟩
          rw [List.length_cons, ← Nat.add_assoc, Nat.add_right_comm]
          exact hrun
      · next hmissing =>
        rw [undrawn_cons_of_not_placed]
        · exact ih hw hchildren hrest added
        · rw [← visualOf?_isSome_iff, ← visualOf?_isSome_iff, Option.isSome_iff_exists,
            Option.isSome_iff_exists]
          rintro ⟨⟨source, hsource⟩, target, htarget⟩
          exact hmissing source target hsource htarget

/-- A view that is there gets its connections. -/
theorem wires_connectView (hv : s.model.view? view = some v)
    (hrs : ∀ r ∈ rs, r.id ∈ s.model.relationshipIds) : ∃ cs failure s',
      connectView view rs s = ((cs.length, failure), s') ∧
      Wires view v (undrawn rs v) s s' failure cs := by
  rw [connectView]
  rcases viewChildren_cases view s with
    ⟨error, s', hcall, hfollows, hrefused, hmodel⟩ | ⟨s', hcall, hfollows, hmade, hmodel⟩
  · rw [hcall]
    exact ⟨[], _, s', rfl, .refused hfollows hrefused hmodel _ _ _⟩
  · simp only [Model.viewChildren, hv] at hcall
    simp only [hcall]
    rcases viewConnections_cases view s' with
      ⟨error, t, hcall', hfollows', hrefused', hmodel'⟩ | ⟨t, hcall', hfollows', hmade', hmodel'⟩
    · rw [hcall']
      exact ⟨[], _, t, rfl, .read hfollows hmade hmodel
        (.refused hfollows' hrefused' hmodel' _ _ _)⟩
    · simp only [Model.viewConnections, hmodel, hv] at hcall'
      rw [← hmodel, ← hmodel'] at hv hrs
      obtain ⟨cs, failure, u, hrun, hwires⟩ := wires_connectAll hv rfl hrs 0
      rw [Nat.zero_add] at hrun
      simp only [hcall']
      exact ⟨cs, failure, u, hrun,
        .read hfollows hmade hmodel (.read hfollows' hmade' hmodel' hwires)⟩

/-- A view that is missing fails at once. -/
theorem connectView_of_none (rs : List Relationship) (hv : s.model.view? view = none) : ∃ error s',
    connectView view rs s = ((0, some ⟨view, .listVisuals, error⟩), s') ∧ Follows s s' ∧
      s'.model = s.model ∧ (Refused s s' ∨ error = .viewNotFound view) := by
  rw [connectView]
  rcases viewChildren_cases view s with
    ⟨error, s', hcall, hfollows, hrefused, hmodel⟩ | ⟨s', hcall, hfollows, -, hmodel⟩
  · rw [hcall]
    exact ⟨error, s', rfl, hfollows, hmodel, Or.inl hrefused⟩
  · simp only [Model.viewChildren, hv] at hcall
    rw [hcall]
    exact ⟨_, s', rfl, hfollows, hmodel, Or.inr rfl⟩

/-- From the first state to the second some views had their turns, one after the other; a view
failed if a call was refused in its turn or the view is missing. -/
inductive Turns (missing failed : String → Prop) :
    List String → FaultyModel → FaultyModel → Prop
  | nil (s : FaultyModel) : Turns missing failed [] s s
  | cons {view : String} {views : List String} {s s' t : FaultyModel} (turn : Follows s s')
      (hfailed : failed view ↔ Refused s s' ∨ missing view)
      (rest : Turns missing failed views s' t) : Turns missing failed (view :: views) s t

theorem Turns.append {missing failed : String → Prop} {views views' : List String}
    (h : Turns missing failed views s s') (h' : Turns missing failed views' s' t) :
    Turns missing failed (views ++ views') s t := by
  induction h with
  | nil => exact h'
  | cons turn hfailed _ ih => exact .cons turn hfailed (ih h')

theorem Turns.congr {missing failed failed' : String → Prop} {views : List String}
    (h : Turns missing failed views s s') (hsame : ∀ view ∈ views, failed' view ↔ failed view) :
    Turns missing failed' views s s' := by
  induction h with
  | nil => exact .nil _
  | cons turn hfailed _ ih =>
    obtain ⟨hview, hviews⟩ := List.forall_mem_cons.mp hsame
    exact .cons turn (hview.trans hfailed) (ih hviews)

theorem Turns.follows {missing failed : String → Prop} {views : List String}
    (h : Turns missing failed views s s') : Follows s s' := by
  induction h with
  | nil s => exact .refl s
  | cons turn _ _ ih => exact turn.trans ih

theorem Turns.failed_iff {missing failed : String → Prop} {views : List String}
    (h : Turns missing failed views s s') :
    (∃ view ∈ views, failed view) ↔ Refused s s' ∨ ∃ view ∈ views, missing view := by
  induction h with
  | nil s => simp [not_refused_self]
  | cons turn hfailed rest ih =>
    rw [List.exists_mem_cons_iff, List.exists_mem_cons_iff, hfailed, ih,
      turn.refused_iff rest.follows]
    tauto

/-- From the first state to the second some views had their turns, in which they got connections. -/
structure Pass (rs : List Relationship) (views : List String) (s s' : FaultyModel)
    (failures : List ConnectFailure) (ds : List (String × Connection)) : Prop where
  turns : Turns (fun view => view ∉ s.model.viewIds)
    (fun view => view ∈ failures.map ConnectFailure.view) views s s'
  failed : (failures.map ConnectFailure.view).Sublist views
  missing : ¬ Refused s s' → failures = (views.filter fun view => view ∉ s.model.viewIds).map
    fun view => ⟨view, .listVisuals, .viewNotFound view⟩
  draws : Draws s.model ds s'.model
  on_views : ∀ d ∈ ds, d.1 ∈ views
  joins : ∀ view ∈ views, ∀ v, s.model.view? view = some v → JoinsFront v (undrawn rs v)
    (view ∈ failures.map ConnectFailure.view) (drawnOn view ds)

theorem Pass.nil (rs : List Relationship) (s : FaultyModel) : Pass rs [] s s [] [] where
  turns := .nil s
  failed := .refl _
  missing := fun _ => rfl
  draws := .refl
  on_views := by simp
  joins := by simp

/-- The turns of some views, then those of others. -/
theorem Pass.append {views views' : List String} {failures failures' : List ConnectFailure}
    {ds ds' : List (String × Connection)} (h : Pass rs views s s' failures ds)
    (h' : Pass rs views' s' t failures' ds') (hdisjoint : views.Disjoint views') :
    Pass rs (views ++ views') s t (failures ++ failures') (ds ++ ds') where
  turns := by
    rw [List.map_append]
    refine .append (h.turns.congr fun view hview => ?_) (.congr (h.draws.viewIds ▸ h'.turns) ?_)
    · rw [List.mem_append]
      exact or_iff_left fun hlater => hdisjoint hview (h'.failed.subset hlater)
    · intro view hview
      rw [List.mem_append]
      exact or_iff_right fun hearlier => hdisjoint (h.failed.subset hearlier) hview
  failed := by
    rw [List.map_append]
    exact h.failed.append h'.failed
  missing := by
    intro hmade
    rw [h.turns.follows.refused_iff h'.turns.follows, not_or] at hmade
    rw [h.missing hmade.1, h'.missing hmade.2, h.draws.viewIds, List.filter_append, List.map_append]
  draws := h.draws.trans h'.draws
  on_views := by
    intro d hd
    rw [List.mem_append] at hd ⊢
    exact hd.imp (h.on_views d) (h'.on_views d)
  joins := by
    intro view hview v hv
    rw [drawnOn_append, List.map_append]
    -- what a view got is of one of the two passes, and till its own a view is as at the start
    rcases List.mem_append.mp hview with hview | hview
    · have hlater : drawnOn view ds' = [] := drawnOn_eq_nil fun d hd he =>
        hdisjoint hview (he ▸ h'.on_views d hd)
      rw [hlater, List.append_nil]
      exact (h.joins view hview v hv).mono fun hfailed => List.mem_append_left _ hfailed
    · have hearlier : drawnOn view ds = [] := drawnOn_eq_nil fun d hd he =>
        hdisjoint (he ▸ h.on_views d hd) hview
      have hv' : s'.model.view? view = some v := by
        rw [h.draws.view? view, hv, hearlier]
        simp [View.drawAll]
      rw [hearlier, List.nil_append]
      exact (h'.joins view hview v hv').mono fun hfailed => List.mem_append_right _ hfailed

/-- A pass names failures just where a call was refused or a view is missing. -/
theorem Pass.failures_ne_nil_iff {views : List String} {failures : List ConnectFailure}
    {ds : List (String × Connection)} (h : Pass rs views s s' failures ds) :
    failures ≠ [] ↔ Refused s s' ∨ ∃ view ∈ views, view ∉ s.model.viewIds := by
  rw [← h.turns.failed_iff]
  constructor
  · intro hne
    obtain ⟨f, hf⟩ := List.exists_mem_of_ne_nil failures hne
    have hmem : f.view ∈ failures.map ConnectFailure.view := List.mem_map_of_mem hf
    exact ⟨f.view, h.failed.subset hmem, hmem⟩
  · rintro ⟨view, -, hfailed⟩ rfl
    cases hfailed

/-- A view has its turn. -/
theorem pass_connectView (view : String) (hrs : ∀ r ∈ rs, r.id ∈ s.model.relationshipIds) :
    ∃ (cs : List Connection) (failure : Option ConnectFailure) (s' : FaultyModel),
      connectView view rs s = ((cs.length, failure), s') ∧
      Pass rs [view] s s' failure.toList (cs.map fun c => (view, c)) := by
  cases hv : s.model.view? view with
  | none =>
    obtain ⟨error, s', hrun, hfollows, hmodel, herror⟩ := connectView_of_none rs hv
    have hmissing : view ∉ s.model.viewIds := Model.view?_eq_none_iff.mp hv
    refine ⟨[], _, s', hrun, .cons hfollows (by simp [hmissing]) (.nil s'), by simp, ?_,
      hmodel ▸ .refl, by simp, by simp [hv]⟩
    intro hmade
    simp [hmissing, herror.resolve_left hmade]
  | some v =>
    obtain ⟨cs, failure, s', hrun, h⟩ := wires_connectView hv hrs
    have hview : view ∈ s.model.viewIds :=
      Model.view?_isSome_iff.mp (Option.isSome_of_eq_some hv)
    have hfailed : view ∈ failure.toList.map ConnectFailure.view ↔ failure.isSome := by
      cases failure with
      | none => simp
      | some f => simp [h.on_view f rfl]
    refine ⟨cs, failure, s', hrun, .cons h.follows ?_ (.nil s'), ?_, ?_, h.draws, by simp, ?_⟩
    · rw [hfailed, h.failure_iff, or_iff_left (not_not.mpr hview)]
    · cases failure with
      | none => simp
      | some f => simp [h.on_view f rfl]
    · intro hmade
      rw [← h.failure_iff, Option.not_isSome_iff_eq_none] at hmade
      simp [hmade, hview]
    · rintro view' hview' w hw
      obtain rfl := List.mem_singleton.mp hview'
      obtain rfl : w = v := Option.some.inj (hw.symm.trans hv)
      rw [drawnOn_self]
      exact h.joins.mono hfailed.mpr

/-- Each view has its turn. -/
theorem pass_connectViews {views : List String} (hviews : views.Nodup)
    (hrs : ∀ r ∈ rs, r.id ∈ s.model.relationshipIds) (report : ConnectReport) :
    ∃ (ds : List (String × Connection)) (failures : List ConnectFailure) (s' : FaultyModel),
      connectViews rs report views s =
        (⟨report.added + ds.length, report.failures ++ failures⟩, s') ∧
      Pass rs views s s' failures ds := by
  induction views generalizing s report with
  | nil =>
    refine ⟨[], [], s, ?_, .nil rs s⟩
    rw [List.append_nil]
    rfl
  | cons view views ih =>
    obtain ⟨hnew, hrest⟩ := List.nodup_cons.mp hviews
    obtain ⟨cs, failure, s', hfirst, h⟩ := pass_connectView view hrs
    have hrs' : ∀ r ∈ rs, r.id ∈ s'.model.relationshipIds := by
      rwa [Model.relationshipIds, h.draws.relationships]
    obtain ⟨ds, failures, t, hothers, h'⟩ :=
      ih hrest hrs' ⟨report.added + cs.length, report.failures ++ failure.toList⟩
    refine ⟨_, _, t, ?_, h.append h' (by simpa using hnew)⟩
    rw [connectViews, hfirst]
    simp only [hothers, List.length_append, List.length_map, Nat.add_assoc, List.append_assoc]

theorem nodup_idSet (ids : List String) : (idSet ids).Nodup := by
  have hascending := Keyed.ascending_ofList (ids.map fun id => (id, ()))
  refine List.pairwise_map.mpr (hascending.imp fun hlt heq => ?_)
  exact String.lt_irrefl _ (heq ▸ hlt)

theorem mem_idSet {id : String} {ids : List String} : id ∈ idSet ids ↔ id ∈ ids := by
  rw [idSet, Keyed.ofList, Keyed.mem_keys_foldl_insert]
  simp

/-- What drawing the relationships of a store on a set of views comes to. -/
theorem pass_autoConnect (views : List String) (s : FaultyModel) :
    ∃ (ds : List (String × Connection)) (failures : List ConnectFailure) (s' : FaultyModel),
      autoConnect views s = (⟨ds.length, failures⟩, s') ∧
      Pass s.model.relationships (idSet views) s s' failures ds := by
  obtain ⟨ds, failures, s', hrun, h⟩ := pass_connectViews (nodup_idSet views)
    (fun r hr => List.mem_map_of_mem hr) ⟨0, []⟩
  rw [Nat.zero_add, List.nil_append] at hrun
  exact ⟨ds, failures, s', hrun, h⟩

end ArchChange.Execution
