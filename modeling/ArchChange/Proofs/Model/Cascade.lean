import ArchChange.Model.Cascade
import ArchChange.Proofs.Model.WellFormed
/-!
What the walk over attached relationships collects: all that lead to the start, and each after
those attached to it unless they lie on a cycle. The bound on its depth is never met, so the walk
is the one that has none.
-/
namespace ArchChange

namespace Cascade

variable {attached : String → List String}

/-- The relation that the walk follows backwards. -/
def Leads (attached : String → List String) (a b : String) : Prop :=
  a ∈ attached b

/-- From the first walk to the second, `new` was met: the roots, all that leads to them but
through what was met before, and each after what leads to it. -/
structure Explores (attached : String → List String) (roots : List String) (w w' : Walk)
    (new : List String) : Prop where
  done_eq : w'.done = w.done ++ new
  mem_seen : ∀ x, x ∈ w'.seen ↔ x ∈ w.seen ∨ x ∈ new
  nodup : new.Nodup
  fresh : ∀ x ∈ new, x ∉ w.seen
  roots_seen : ∀ r ∈ roots, r ∈ w'.seen
  reached : ∀ x ∈ new, ∃ r ∈ roots, Relation.ReflTransGen (Leads attached) x r
  closed : ∀ x ∈ new, ∀ y ∈ attached x, y ∈ w'.seen
  ordered : ∀ l x l', new = l ++ x :: l' → ∀ y ∈ attached x,
    y ∈ w.seen ∨ y ∈ l ∨ Relation.TransGen (Leads attached) y y

theorem Explores.nil (w : Walk) : Explores attached [] w w [] where
  done_eq := by simp
  mem_seen := by simp
  nodup := List.nodup_nil
  fresh := by simp
  roots_seen := by simp
  reached := by simp
  closed := by simp
  ordered := by simp

theorem Explores.append {rs rs' n n' : List String} {w w' w'' : Walk}
    (h : Explores attached rs w w' n) (h' : Explores attached rs' w' w'' n') :
    Explores attached (rs ++ rs') w w'' (n ++ n') where
  done_eq := by rw [h'.done_eq, h.done_eq, List.append_assoc]
  mem_seen := by
    intro x
    rw [h'.mem_seen, h.mem_seen, List.mem_append, or_assoc]
  nodup := by
    refine List.nodup_append.mpr ⟨h.nodup, h'.nodup, ?_⟩
    rintro x hx _ hx' rfl
    exact h'.fresh x hx' ((h.mem_seen x).mpr (Or.inr hx))
  fresh := by
    intro x hx hw
    rcases List.mem_append.mp hx with hx | hx
    · exact h.fresh x hx hw
    · exact h'.fresh x hx ((h.mem_seen x).mpr (Or.inl hw))
  roots_seen := by
    intro r hr
    rcases List.mem_append.mp hr with hr | hr
    · exact (h'.mem_seen r).mpr (Or.inl (h.roots_seen r hr))
    · exact h'.roots_seen r hr
  reached := by
    intro x hx
    rcases List.mem_append.mp hx with hx | hx
    · obtain ⟨r, hr, hxr⟩ := h.reached x hx
      exact ⟨r, List.mem_append_left _ hr, hxr⟩
    · obtain ⟨r, hr, hxr⟩ := h'.reached x hx
      exact ⟨r, List.mem_append_right _ hr, hxr⟩
  closed := by
    intro x hx y hy
    rcases List.mem_append.mp hx with hx | hx
    · exact (h'.mem_seen y).mpr (Or.inl (h.closed x hx y hy))
    · exact h'.closed x hx y hy
  ordered := by
    intro l x l' heq y hy
    rcases List.append_eq_append_iff.mp heq with ⟨t, rfl, ht⟩ | ⟨t, rfl, ht⟩
    · rcases h'.ordered t x l' ht y hy with hs | ht | hc
      · rcases (h.mem_seen y).mp hs with hs | hn
        · exact Or.inl hs
        · exact Or.inr (Or.inl (List.mem_append_left _ hn))
      · exact Or.inr (Or.inl (List.mem_append_right _ ht))
      · exact Or.inr (Or.inr hc)
    · cases t with
      | nil =>
        rw [List.nil_append] at ht
        rcases h'.ordered [] x l' (by simp [ht]) y hy with hs | hl | hc
        · rcases (h.mem_seen y).mp hs with hs | hn
          · exact Or.inl hs
          · exact Or.inr (Or.inl (by simpa using hn))
        · cases hl
        · exact Or.inr (Or.inr hc)
      | cons z t =>
        rw [List.cons_append, List.cons.injEq] at ht
        obtain ⟨rfl, -⟩ := ht
        exact h.ordered l x t rfl y hy

/-- A new root is met after all that leads to it. -/
theorem Explores.visit {r : String} {n : List String} {w w' : Walk} (hr : r ∉ w.seen)
    (h : Explores attached (attached r) { w with seen := r :: w.seen } w' n) :
    Explores attached [r] w { w' with done := w'.done ++ [r] } (n ++ [r]) where
  done_eq := by simp [h.done_eq]
  mem_seen := by
    intro x
    rw [h.mem_seen, List.mem_append, List.mem_cons, List.mem_singleton]
    tauto
  nodup := by
    refine List.nodup_append.mpr ⟨h.nodup, List.nodup_singleton r, ?_⟩
    rintro x hx _ hx' rfl
    exact h.fresh x hx (by simp [List.mem_singleton.mp hx'])
  fresh := by
    intro x hx hw
    rcases List.mem_append.mp hx with hx | hx
    · exact h.fresh x hx (List.mem_cons_of_mem _ hw)
    · exact hr (List.mem_singleton.mp hx ▸ hw)
  roots_seen := by
    intro x hx
    rw [List.mem_singleton.mp hx]
    exact (h.mem_seen r).mpr (Or.inl List.mem_cons_self)
  reached := by
    intro x hx
    refine ⟨r, List.mem_singleton_self r, ?_⟩
    rcases List.mem_append.mp hx with hx | hx
    · obtain ⟨q, hq, hxq⟩ := h.reached x hx
      exact hxq.tail hq
    · rw [List.mem_singleton.mp hx]
  closed := by
    intro x hx y hy
    rcases List.mem_append.mp hx with hx | hx
    · exact h.closed x hx y hy
    · rw [List.mem_singleton.mp hx] at hy
      exact h.roots_seen y hy
  ordered := by
    intro l x l' heq y hy
    rcases List.eq_nil_or_concat l' with rfl | ⟨l', z, rfl⟩
    · obtain ⟨rfl, hx⟩ := List.append_inj' heq rfl
      rw [← List.singleton_inj.mp hx] at hy
      rcases (h.mem_seen y).mp (h.roots_seen y hy) with hs | hn
      · rcases List.mem_cons.mp hs with rfl | hs
        · exact Or.inr (Or.inr (.single hy))
        · exact Or.inl hs
      · exact Or.inr (Or.inl hn)
    · have heq' : n ++ [r] = (l ++ x :: l') ++ [z] := by simpa using heq
      have hn : n = l ++ x :: l' := (List.append_inj' heq' rfl).1
      rcases h.ordered l x l' hn y hy with hs | hl | hc
      · rcases List.mem_cons.mp hs with rfl | hs
        · -- what leads to the root but was met through it closes a cycle
          obtain ⟨q, hq, hxq⟩ := h.reached x (by simp [hn])
          exact Or.inr (Or.inr (Relation.TransGen.head' hy (hxq.tail hq)))
        · exact Or.inl hs
      · exact Or.inr (Or.inl hl)
      · exact Or.inr (Or.inr hc)

/-- The walk without a bound on its depth: the roots in turn, each unless met before and after what
is attached to it. -/
inductive Visits (attached : String → List String) : List String → Walk → Walk → Prop
  | nil (w : Walk) : Visits attached [] w w
  | skip {r : String} {rs : List String} {w w' : Walk} (hr : r ∈ w.seen)
      (rest : Visits attached rs w w') : Visits attached (r :: rs) w w'
  | descend {r : String} {rs : List String} {w u w' : Walk} (hr : r ∉ w.seen)
      (below : Visits attached (attached r) { w with seen := r :: w.seen } u)
      (rest : Visits attached rs { u with done := u.done ++ [r] } w') :
      Visits attached (r :: rs) w w'

theorem Visits.unique {rs : List String} {w u v : Walk} (hu : Visits attached rs w u)
    (hv : Visits attached rs w v) : u = v := by
  induction hu generalizing v with
  | nil w =>
    cases hv
    rfl
  | skip hr _ ih =>
    cases hv with
    | skip _ rest => exact ih rest
    | descend hn _ _ => exact absurd hr hn
  | descend hn _ _ ihbelow ihrest =>
    cases hv with
    | skip hr _ => exact absurd hr hn
    | descend _ below rest =>
      obtain rfl := ihbelow below
      exact ihrest rest

theorem Visits.explores {rs : List String} {w w' : Walk} (h : Visits attached rs w w') :
    ∃ n, Explores attached rs w w' n := by
  induction h with
  | nil w => exact ⟨[], .nil w⟩
  | @skip r rs w w' hr _ ih =>
    obtain ⟨n, h⟩ := ih
    have hone : Explores attached [r] w w [] :=
      { Explores.nil w with roots_seen := by simpa using hr, reached := by simp }
    exact ⟨n, hone.append h⟩
  | descend hr _ _ ihbelow ihrest =>
    obtain ⟨n, hbelow⟩ := ihbelow
    obtain ⟨n', hrest⟩ := ihrest
    exact ⟨(n ++ [_]) ++ n', (hbelow.visit hr).append hrest⟩

theorem Visits.mem_seen {rs : List String} {w w' : Walk} (h : Visits attached rs w w') {x : String}
    (hx : x ∈ w.seen) : x ∈ w'.seen := by
  obtain ⟨n, h⟩ := h.explores
  exact (h.mem_seen x).mpr (Or.inl hx)

/-- The nodes that a walk has not met. -/
def unseen (nodes : List String) (w : Walk) : List String :=
  nodes.filter fun x => x ∉ w.seen

theorem unseen_le (nodes : List String) {w w' : Walk} (h : ∀ x ∈ w.seen, x ∈ w'.seen) :
    (unseen nodes w').length ≤ (unseen nodes w).length := by
  apply List.Sublist.length_le
  apply List.monotone_filter_right
  intro x hx
  simp only [decide_eq_true_eq] at hx ⊢
  exact fun hw => hx (h x hw)

theorem unseen_lt {nodes : List String} {w : Walk} {r : String} (hn : r ∈ nodes)
    (hr : r ∉ w.seen) :
    (unseen nodes { w with seen := r :: w.seen }).length < (unseen nodes w).length := by
  have hfilter : unseen nodes { w with seen := r :: w.seen } =
      (unseen nodes w).filter fun x => x ≠ r := by
    rw [unseen, unseen, List.filter_filter]
    apply List.filter_congr
    intro x _
    simp
  rw [hfilter, List.length_filter_lt_length_iff_exists]
  exact ⟨r, by simp [unseen, hn, hr], by simp⟩

/-- Deeper than there are nodes left to meet, the walk never meets the bound on its depth. -/
theorem walkFrom_visits {nodes : List String} (hn : ∀ id, ∀ r ∈ attached id, r ∈ nodes)
    (depth : Nat) (id : String) (w : Walk) (hd : (unseen nodes w).length < depth) :
    Visits attached (attached id) w (walkFrom attached depth id w) := by
  -- what is below a root is met by the walk of one depth less, the roots after it by this one
  induction depth generalizing id w with
  | zero => omega
  | succ depth ih =>
    have hall : ∀ rs w, (∀ r ∈ rs, r ∈ nodes) → (unseen nodes w).length < depth + 1 →
        Visits attached rs w (rs.foldl (Cascade.visit (walkFrom attached depth)) w) := by
      intro rs
      induction rs with
      | nil => exact fun w _ _ => .nil w
      | cons r rs ihr =>
        intro w hrs hw
        have hrest : ∀ u, (∀ x ∈ w.seen, x ∈ u.seen) →
            Visits attached rs u (rs.foldl (Cascade.visit (walkFrom attached depth)) u) := by
          intro u hu
          have hle := unseen_le nodes hu
          exact ihr u (fun x hx => hrs x (List.mem_cons_of_mem _ hx)) (by omega)
        rw [List.foldl_cons]
        by_cases hr : r ∈ w.seen
        · rw [Cascade.visit, if_pos (by simpa using hr)]
          exact .skip hr (hrest w fun x hx => hx)
        · rw [Cascade.visit, if_neg (by simpa using hr)]
          have hlt := unseen_lt (hrs r List.mem_cons_self) hr
          have hbelow := ih r { w with seen := r :: w.seen } (by omega)
          exact .descend hr hbelow
            (hrest _ fun x hx => hbelow.mem_seen (List.mem_cons_of_mem _ hx))
    exact hall (attached id) w (hn id) hd

end Cascade

namespace Model

variable {m : Model} {id : String}

/-- The walk from an id ends, and what it leaves behind is the cascade of the id. -/
theorem cascade_visits (m : Model) (id : String) : ∃ w,
    Cascade.Visits m.attached (m.attached id) ⟨[id], []⟩ w ∧ w.done = m.cascade id := by
  refine ⟨_, Cascade.walkFrom_visits (fun _ _ h => mem_relationshipIds_of_attached h) _ id _ ?_,
    rfl⟩
  have hle : (Cascade.unseen m.relationshipIds ⟨[id], []⟩).length ≤
      m.relationshipIds.length := List.length_filter_le _ _
  have hlength : m.relationshipIds.length = m.relationships.length := List.length_map _
  omega

theorem cascade_explores (m : Model) (id : String) : ∃ w,
    Cascade.Explores m.attached (m.attached id) ⟨[id], []⟩ w (m.cascade id) := by
  obtain ⟨w, hw, hdone⟩ := cascade_visits m id
  obtain ⟨n, h⟩ := hw.explores
  obtain rfl : n = m.cascade id := by rw [← hdone, h.done_eq, List.nil_append]
  exact ⟨w, h⟩

theorem cascade_nodup (m : Model) (id : String) : (m.cascade id).Nodup := by
  obtain ⟨w, h⟩ := cascade_explores m id
  exact h.nodup

/-- The cascade of an id holds what leads to it, the id apart. -/
theorem mem_cascade {r : String} :
    r ∈ m.cascade id ↔ r ≠ id ∧ Relation.TransGen m.Attached r id := by
  obtain ⟨w, h⟩ := cascade_explores m id
  constructor
  · intro hr
    obtain ⟨q, hq, hrq⟩ := h.reached r hr
    refine ⟨?_, Relation.TransGen.tail' hrq hq⟩
    intro he
    exact h.fresh r hr (by simp [he])
  · rintro ⟨hne, hr⟩
    have hseen : ∀ x, Relation.ReflTransGen m.Attached x id → x ∈ w.seen := by
      intro x hx
      induction hx using Relation.ReflTransGen.head_induction_on with
      | refl => exact (h.mem_seen id).mpr (Or.inl List.mem_cons_self)
      | head hab _ hb =>
        rcases (h.mem_seen _).mp hb with hb | hb
        · rw [List.mem_singleton.mp hb] at hab
          exact h.roots_seen _ hab
        · exact h.closed _ hb _ hab
    rcases (h.mem_seen r).mp (hseen r hr.to_reflTransGen) with hr | hr
    · exact absurd (List.mem_singleton.mp hr) hne
    · exact hr

theorem mem_relationshipIds_of_mem_cascade {r : String} (h : r ∈ m.cascade id) :
    r ∈ m.relationshipIds := by
  obtain ⟨b, hb, -⟩ := Relation.TransGen.head'_iff.mp (mem_cascade.mp h).2
  exact mem_relationshipIds_of_attached hb

/-- Each relationship of a cascade stands after those attached to it, if nothing that leads to the
start lies on a cycle. -/
theorem mem_of_cascade_eq
    (hm : ∀ x, Relation.ReflTransGen m.Attached x id → ¬ Relation.TransGen m.Attached x x)
    {l l' : List String} {x y : String} (hc : m.cascade id = l ++ x :: l') (hy : m.Attached y x) :
    y ∈ l := by
  obtain ⟨w, h⟩ := cascade_explores m id
  have hx := (mem_cascade.mp (hc ▸ List.mem_append_cons_self : x ∈ m.cascade id)).2
  rcases h.ordered l x l' hc y hy with hs | hl | hcycle
  · rw [List.mem_singleton.mp hs] at hy
    exact absurd (Relation.TransGen.head hy hx) (hm id .refl)
  · exact hl
  · exact absurd hcycle (hm y (Relation.TransGen.head hy hx).to_reflTransGen)

end Model

end ArchChange
