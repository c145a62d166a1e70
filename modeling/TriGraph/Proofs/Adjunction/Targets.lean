import TriGraph.Proofs.Adjunction.Membership
import TriGraph.Proofs.Knowledge.Outcomes
import TriGraph.Proofs.Trinity.Cleared

/-!
# Where the built-in mappings lead

What a built-in mapping finds is there, in the layer in which its adjoint ends; and since an adjoint starts from a
node, a walk through built-in adjunctions goes from node to node.
-/

namespace TriGraph

def Mapping.LandsIn (f : Mapping) (l : Layer) : Prop :=
  ∀ g n x, (g.store l).Linked → f g n = some x → ∃ m ∈ (g.store l).allNodes, m.id = x

namespace Ranking

variable {α : Type}

theorem leader_mem (top : α × Float) (cs : List (α × Float)) : leader top cs ∈ top :: cs := by
  induction cs generalizing top with
  | nil => exact List.mem_singleton_self top
  | cons c cs ih =>
    unfold leader
    split
    · exact List.mem_cons_self
    · exact List.mem_cons_of_mem top (ih c)
    · rcases List.mem_cons.mp (ih top) with h | h
      · exact List.mem_cons.mpr (Or.inl h)
      · exact List.mem_cons_of_mem top (List.mem_cons_of_mem c h)

theorem exists_score_of_best? {x : α} {cs : List (α × Float)} (h : best? cs = some x) : ∃ score, (x, score) ∈ cs := by
  cases cs with
  | nil => cases h
  | cons c cs =>
    cases h
    exact ⟨_, leader_mem c cs⟩

end Ranking

namespace Builtin

/-! ## Candidates -/

theorem entity_of_score {first last : Float} {e : Node} {c : Node × Float} (h : entityScore? first last e = some c) :
    c.1 = e ∧ ∃ t, numberOf? timestamp e = some t ∧ within first last t = true := by
  obtain ⟨t, ht, h⟩ := Option.bind_eq_some_iff.mp h
  split at h
  · next hw =>
    cases h
    exact ⟨rfl, t, ht, hw⟩
  · cases h

theorem context_of_score {t : Float} {n : Node} {c : Node × Float} (h : contextScore? t n = some c) : c.1 = n := by
  obtain ⟨⟨first, last⟩, -, h⟩ := Option.bind_eq_some_iff.mp h
  dsimp only at h
  split at h
  · cases h
    rfl
  · cases h

def Exemplifies (n c : Node) : Prop :=
  (ContextKind.ofNode c = .temporal ∧ ∃ first last t, interval? c = some (first, last) ∧
    numberOf? timestamp n = some t ∧ within first last t = true) ∨
  (ContextKind.ofNode c = .spatial ∧ ∃ place, c.property? Contexts.location = some place ∧ isAt place n = true)

theorem mem_exemplars {g : Graphs} {c n : Node} {score : Float} (h : (n, score) ∈ exemplars g c) :
    n ∈ g.instances.allNodes ∧ Exemplifies n c := by
  unfold exemplars at h
  split at h
  · next hk =>
    split at h
    · next first last hi =>
      obtain ⟨e, he, hs⟩ := List.mem_filterMap.mp h
      obtain ⟨rfl, t, ht, hw⟩ := entity_of_score hs
      exact ⟨he, Or.inl ⟨hk, first, last, t, hi, ht, hw⟩⟩
    · cases h
  · next hk =>
    split at h
    · next place hp =>
      obtain ⟨e, he, hs⟩ := List.mem_map.mp h
      cases hs
      obtain ⟨he, hat⟩ := List.mem_filter.mp he
      exact ⟨he, Or.inr ⟨hk, place, hp, hat⟩⟩
    · cases h
  · cases h

theorem exists_of_exemplarOfContext {g : Graphs} {c : Node} {x : String} (h : exemplarOfContext g c = some x) :
    ∃ n ∈ g.instances.allNodes, n.id = x ∧ Exemplifies n c := by
  obtain ⟨n, hbest, hx⟩ := Option.map_eq_some_iff.mp h
  obtain ⟨score, hs⟩ := Ranking.exists_score_of_best? hbest
  obtain ⟨hn, he⟩ := mem_exemplars hs
  exact ⟨n, hn, hx, he⟩

theorem mem_exemplified {g : Graphs} {n c : Node} {score : Float} (h : (c, score) ∈ exemplified g n) :
    c ∈ g.contexts.allNodes := by
  rcases List.mem_append.mp h with h | h
  · split at h
    · obtain ⟨d, hd, hs⟩ := List.mem_filterMap.mp h
      cases context_of_score hs
      exact List.mem_of_mem_filter hd
    · cases h
  · split at h
    · obtain ⟨d, hd, hs⟩ := List.mem_map.mp h
      cases hs
      exact List.mem_of_mem_filter (List.mem_of_mem_filter hd)
    · cases h

theorem mem_contextsOfConcept {g : Graphs} {n c : Node} (h : c ∈ contextsOfConcept g n) : c ∈ g.contexts.allNodes := by
  rcases List.mem_append.mp h with h | h
  · split at h
    · exact List.mem_of_mem_filter h
    · cases h
  · split at h
    · exact List.mem_of_mem_filter h
    · cases h

/-! ## The eight mappings -/

theorem landsIn_entityOfConcept : entityOfConcept.LandsIn .instances := by
  intro g n x _ h
  obtain ⟨m, hm, hx⟩ := mem_of_firstId h
  exact ⟨m, List.mem_of_mem_filter hm, hx⟩

theorem landsIn_conceptOfEntity : conceptOfEntity.LandsIn .ontology := by
  intro g n x hl h
  unfold conceptOfEntity at h
  split at h
  · split at h
    · cases h
    · obtain ⟨m, hm, hx⟩ := Option.map_eq_some_iff.mp h
      exact ⟨m, (hl.nodes.get?_eq_some.mp hm).1, hx⟩
  · cases h

theorem landsIn_contextOfEntity : contextOfEntity.LandsIn .contexts := by
  intro g n x _ h
  obtain ⟨c, hc, hx, -⟩ := exists_of_contextOfEntity h
  exact ⟨c, hc, hx⟩

theorem landsIn_entityOfContext : entityOfContext.LandsIn .instances := by
  intro g n x _ h
  obtain ⟨e, he, hx, -⟩ := exists_of_entityOfContext h
  exact ⟨e, he, hx⟩

theorem landsIn_exemplarOfContext : exemplarOfContext.LandsIn .instances := by
  intro g n x _ h
  obtain ⟨e, he, hx, -⟩ := exists_of_exemplarOfContext h
  exact ⟨e, he, hx⟩

theorem landsIn_exemplifiedByEntity : exemplifiedByEntity.LandsIn .contexts := by
  intro g n x _ h
  obtain ⟨m, hm, hx⟩ := Option.map_eq_some_iff.mp h
  obtain ⟨score, hs⟩ := Ranking.exists_score_of_best? hm
  exact ⟨m, mem_exemplified hs, hx⟩

theorem landsIn_conceptOfContext : conceptOfContext.LandsIn .ontology := by
  intro g n x _ h
  unfold conceptOfContext at h
  dsimp only at h
  split at h
  · next id hmarked =>
    cases h
    split at hmarked
    · obtain ⟨m, hm, hx⟩ := mem_of_firstId hmarked
      exact ⟨m, List.mem_of_mem_filter hm, hx⟩
    · cases hmarked
  · obtain ⟨m, hm, hx⟩ := mem_of_firstId h
    exact ⟨m, List.mem_of_mem_filter hm, hx⟩

theorem landsIn_contextOfConcept : contextOfConcept.LandsIn .contexts := by
  intro g n x _ h
  unfold contextOfConcept at h
  split at h
  · next id hflagged =>
    cases h
    obtain ⟨m, hm, hx⟩ := mem_of_firstId hflagged
    exact ⟨m, mem_contextsOfConcept hm, hx⟩
  · exact mem_of_firstId h

theorem landsIn_of_mem {a : Adjunction} (ha : a ∈ adjunctions) (side : Adjoint) :
    (a.mapping side).LandsIn (a.finish side) := by
  simp only [adjunctions, List.mem_cons, List.not_mem_nil, or_false] at ha
  rcases ha with rfl | rfl | rfl | rfl | rfl | rfl
  · cases side
    · exact landsIn_entityOfConcept
    · exact landsIn_conceptOfEntity
  · cases side
    · exact landsIn_conceptOfEntity
    · exact landsIn_entityOfConcept
  · cases side
    · exact landsIn_contextOfEntity
    · exact landsIn_entityOfContext
  · cases side
    · exact landsIn_exemplarOfContext
    · exact landsIn_exemplifiedByEntity
  · cases side
    · exact landsIn_conceptOfContext
    · exact landsIn_contextOfConcept
  · cases side
    · exact landsIn_contextOfConcept
    · exact landsIn_conceptOfContext

end Builtin

/-! ## In a trinity -/

namespace Trinity

variable {t : Trinity}

theorem Cleared.ends_of_apply (h : t.Cleared) (hf : t.knowledge.Furnished) {a : Adjunction}
    (ha : a ∈ Builtin.adjunctions) {side : Adjoint} {id x : String}
    (hx : (t.read (.apply a.name side id)).1 = .ok (some x)) :
    (∃ n ∈ (t.graphs.store (a.start side)).allNodes, n.id = id) ∧
      ∃ n ∈ (t.graphs.store (a.finish side)).allNodes, n.id = x := by
  obtain ⟨n, hn, hid, hm⟩ := h.exists_of_apply (hf a ha) hx
  exact ⟨⟨n, hn, hid⟩, Builtin.landsIn_of_mem ha side _ _ _ (h.built.store _).linked hm⟩

def Stands (t : Trinity) (x : Waypoint) : Prop :=
  ∃ n ∈ (t.graphs.store x.layer).allNodes, x.node = some n ∧ n.id = x.id

theorem stands_of_present {l : Layer} {id : String} (hl : (t.graphs.store l).Linked)
    (h : ∃ n ∈ (t.graphs.store l).allNodes, n.id = id) : t.Stands (t.knowledge.waypoint l id) := by
  obtain ⟨n, hn, rfl⟩ := h
  exact ⟨n, hn, hl.nodes.get?_of_mem hn, rfl⟩

theorem Trail.stands (h : t.Cleared) (hf : t.knowledge.Furnished) {x y : Waypoint} {p : List TraversalStep}
    {w : List Waypoint} (hw : t.Trail x p w y) (hp : ∀ s ∈ p, s.adjunction ∈ Builtin.adjunctions.map (·.name)) :
    ∀ z ∈ w, t.Stands z := by
  induction hw with
  | stay => exact fun _ hz => nomatch hz
  | @go x _ s a id p w hs ha _ ih =>
    obtain ⟨hname, hp⟩ := List.forall_mem_cons.mp hp
    obtain ⟨b, hb, hbn⟩ := List.mem_map.mp hname
    have hab : a = b := by
      have := hf b hb
      rw [hbn, hs.1] at this
      exact Option.some.inj this
    subst hab
    rw [← hbn] at ha
    refine List.forall_mem_cons.mpr ⟨?_, ih hp⟩
    exact stands_of_present (h.built.store _).linked (h.ends_of_apply hf hb ha).2

/-- With a memo that has been cleared since the last write, built-in adjoints lead from a node to a node, and walks
through them have a node at each place. -/
theorem ends_present (h : t.Cleared) (hf : t.knowledge.Furnished) :
    (∀ a ∈ Builtin.adjunctions, ∀ side id x, (t.read (.apply a.name side id)).1 = .ok (some x) →
      (∃ n ∈ (t.graphs.store (a.start side)).allNodes, n.id = id) ∧
        ∃ n ∈ (t.graphs.store (a.finish side)).allNodes, n.id = x) ∧
    ∀ graph id plan w, (∀ s ∈ plan, s.adjunction ∈ Builtin.adjunctions.map (·.name)) →
      (t.walk graph id plan).1 = .ok w → ∀ x ∈ w, t.Stands x := by
  refine ⟨fun a ha side id x hx => h.ends_of_apply hf ha hx, fun graph id plan v hplan hv => ?_⟩
  rcases walk_eq_ok.mp hv with ⟨l, -, -, rfl⟩ | ⟨x, w, ⟨l, -, hn, rfl⟩, hw, rfl⟩
  · exact fun _ hx => nomatch hx
  · have hl := (h.built.store l).linked
    obtain ⟨p, q, y, rfl, htrail, -⟩ := (onward_eq_ok h.built.reachable).mp hw
    refine List.forall_mem_cons.mpr ⟨stands_of_present hl (hl.hasNode_iff.mp hn), ?_⟩
    exact htrail.stands h hf fun s hs => hplan s (List.mem_append_left _ hs)

theorem furnished_library : library.knowledge.Furnished :=
  furnished_new "Library"

def tour : List TraversalStep :=
  [⟨Builtin.contextualization, .left⟩, ⟨Builtin.exemplification, .left⟩, ⟨Builtin.instantiation, .right⟩,
    ⟨Builtin.applicability, .left⟩]

theorem ends_present_library : library.refresh.Cleared ∧ library.refresh.knowledge.Furnished ∧
    ∃ w, (library.refresh.walk "instance" "shakespeare" tour).1 = .ok w ∧
      w.map (·.id) = ["shakespeare", "renaissance", "shakespeare", "Author", "renaissance"] ∧
      ∀ x ∈ w, library.refresh.Stands x := by
  have hc : library.refresh.Cleared := .refresh built_library
  have hids : (library.refresh.walk "instance" "shakespeare" tour).1.toOption.map (·.map (·.id)) =
      some ["shakespeare", "renaissance", "shakespeare", "Author", "renaissance"] := by decide +kernel
  refine ⟨hc, furnished_library, ?_⟩
  cases hw : (library.refresh.walk "instance" "shakespeare" tour).1 with
  | error e =>
    rw [hw] at hids
    cases hids
  | ok w =>
    rw [hw] at hids
    exact ⟨w, rfl, Option.some.inj hids, (ends_present hc furnished_library).2 _ _ tour w (by decide) hw⟩

end Trinity

end TriGraph
