import TriGraph.Proofs.Adjunction.Targets

/-!
# Pairings

An entity and a context that contextualization joins belong together. An exemplar may be in the interval of its
context by rounding only; but as it has a time it shares a property with itself, and so it is relevant there too.
-/

namespace TriGraph

open Builtin

namespace Knowledge

variable {k : Knowledge} {m : Memo} {n c : Node}

theorem Furnished.contextualization (hf : k.Furnished) : k.adjunction? contextualization =
    some ⟨contextualization, .instances, .contexts, contextOfEntity, entityOfContext⟩ :=
  hf ⟨Builtin.contextualization, _, _, _, _⟩ (by simp [Builtin.adjunctions])

theorem Furnished.exemplification (hf : k.Furnished) : k.adjunction? exemplification =
    some ⟨exemplification, .contexts, .instances, exemplarOfContext, exemplifiedByEntity⟩ :=
  hf ⟨Builtin.exemplification, _, _, _, _⟩ (by simp [Builtin.adjunctions])

/-! ## Relevance without a memo -/

def relevance (k : Knowledge) (n c : Node) : Bool :=
  belongs c n || ((contextOfEntity k.graphs n).bind (k.node? .contexts)).any (k.contextsCompatible · c)
    || ((exemplarOfContext k.graphs c).bind (k.node? .instances)).any (k.instancesRelated · n)

section
variable (hk : k.Named) (hf : k.Furnished) (hm : k.Truthful m) (hn : k.node? .instances n.id = some n)
  (hc : k.node? .contexts c.id = some c)
include hk hf hm hn hc

theorem settled_instanceIsRelevant : Settled k m (k.instanceIsRelevant n c) (k.relevance n c) := by
  have hreached : Settled k m (k.mapped? contextualization .contexts n.id)
      ((contextOfEntity k.graphs n).bind (k.node? .contexts)) :=
    settled_mapped?_of_node hk hm hf.contextualization hn .contexts
  have hexemplar : Settled k m (k.mapped? exemplification .instances c.id)
      ((exemplarOfContext k.graphs c).bind (k.node? .instances)) :=
    settled_mapped?_of_node hk hm hf.exemplification hc .instances
  unfold instanceIsRelevant relevance
  cases belongs c n with
  | true => exact .pure true
  | false =>
    refine hreached.bind ?_
    cases ((contextOfEntity k.graphs n).bind (k.node? .contexts)).any (k.contextsCompatible · c) with
    | true => exact .pure true
    | false => exact hexemplar.bind (.pure _)

theorem settled_relevant : Settled k m (k.relevant n.id c.id) (k.relevance n c) := by
  unfold relevant
  rw [hn, hc]
  exact settled_instanceIsRelevant hk hf hm hn hc

end

theorem relevance_of_belongs (hb : belongs c n = true) : k.relevance n c = true := by
  rw [relevance, hb, Bool.true_or, Bool.true_or]

/-! ## Exemplars -/

theorem shareProperty_self {name : String} {v : Value} (hp : n.property? name = some v) (hv : (v == v) = true) :
    shareProperty n n = true :=
  List.any_eq_true.mpr ⟨(name, v), Catalog.mem_of_get? hp, by simp [hp, hv]⟩

theorem related_self_of_within {first last t : Float} (ht : numberOf? timestamp n = some t)
    (hw : within first last t = true) : k.instancesRelated n n = true := by
  obtain ⟨v, hv, hnum⟩ := Option.bind_eq_some_iff.mp ht
  have hnan : Number.isNaN t = false := (Number.isNaN_of_atMost (Bool.and_eq_true_iff.mp hw).1).2
  have hself : shareProperty n n = true := shareProperty_self hv (Value.beq_self_of_number hnum hnan)
  rw [instancesRelated, hself, Bool.or_true]

theorem relevance_exemplar {x : String} (hl : k.graphs.instances.Linked)
    (hx : exemplarOfContext k.graphs c = some x) :
    ∃ n ∈ k.graphs.instances.allNodes, n.id = x ∧ k.relevance n c = true := by
  obtain ⟨n, hn, rfl, hexemplar⟩ := exists_of_exemplarOfContext hx
  refine ⟨n, hn, rfl, ?_⟩
  rcases hexemplar with ⟨-, first, last, t, -, ht, hw⟩ | ⟨hkind, place, hp, hat⟩
  · have hget : k.node? .instances n.id = some n := hl.nodes.get?_of_mem hn
    simp [relevance, hx, hget, related_self_of_within ht hw]
  · obtain ⟨here, hh, heq⟩ := isAt_iff.mp hat
    refine relevance_of_belongs ((belongs_spatial hkind).mpr ⟨here, place, hh, hp, ?_⟩)
    rw [Value.beq_comm, heq]

end Knowledge

namespace Trinity

variable {t : Trinity}

theorem Cleared.relevant_eq (h : t.Cleared) (hf : t.knowledge.Furnished) {n c : Node}
    (hn : n ∈ t.graphs.instances.allNodes) (hc : c ∈ t.graphs.contexts.allNodes) :
    (t.read (.relevant n.id c.id)).1 = .ok (t.knowledge.relevance n c) :=
  (Knowledge.settled_relevant h.built.reachable.named hf h.truthful
    ((h.built.store .instances).linked.nodes.get?_of_mem hn)
    ((h.built.store .contexts).linked.nodes.get?_of_mem hc)).answers t.memo .refl

/-- An entity is relevant in a context that contextualization joins it with, or of which it is the exemplar. -/
theorem relevant_of_paired (h : t.Cleared) (hf : t.knowledge.Furnished) {i c : String}
    (hp : (t.read (.apply contextualization .left i)).1 = .ok (some c) ∨
      (t.read (.apply contextualization .right c)).1 = .ok (some i) ∨
      (t.read (.apply exemplification .left c)).1 = .ok (some i)) :
    (t.read (.relevant i c)).1 = .ok true := by
  rcases hp with hp | hp | hp
  · obtain ⟨n, hn, rfl, hm⟩ := h.exists_of_apply hf.contextualization hp
    obtain ⟨d, hd, rfl, -, hb⟩ := exists_of_contextOfEntity hm
    rw [h.relevant_eq hf hn hd, Knowledge.relevance_of_belongs hb]
  · obtain ⟨d, hd, rfl, hm⟩ := h.exists_of_apply hf.contextualization hp
    obtain ⟨n, hn, rfl, hb⟩ := exists_of_entityOfContext hm
    rw [h.relevant_eq hf hn hd, Knowledge.relevance_of_belongs hb]
  · obtain ⟨d, hd, rfl, hm⟩ := h.exists_of_apply hf.exemplification hp
    obtain ⟨n, hn, rfl, hr⟩ := Knowledge.relevance_exemplar (h.built.store .instances).linked hm
    rw [h.relevant_eq hf hn hd, hr]

/-- An event at a time of 54 bits, and an instant just after it that begins and ends as the same float. -/
def instant : Trinity :=
  ((Trinity.new "Instant").mapStore .contexts
    (·.run [.addNode (Contexts.temporal "instant" (.int 9007199254740993) (.int 9007199254740993) [])])).mapStore
      .instances (·.run [.addNode (Instances.entity "event" "Event" [("timestamp", .int 9007199254740992)])])

theorem relevant_of_paired_instant : instant.refresh.Cleared ∧ instant.refresh.knowledge.Furnished ∧
    (instant.refresh.read (.apply exemplification .left "instant")).1 = .ok (some "event") ∧
    (instant.refresh.read (.relevant "event" "instant")).1 = .ok true := by
  have hc : instant.refresh.Cleared := .refresh (((Built.new "Instant").run .contexts _).run .instances _)
  have hf : instant.refresh.knowledge.Furnished := furnished_new "Instant"
  have he : (instant.refresh.read (.apply exemplification .left "instant")).1 = .ok (some "event") :=
    (hc.read_apply hf.exemplification .left "instant").trans (congrArg Except.ok (by decide +kernel))
  exact ⟨hc, hf, he, relevant_of_paired hc hf (Or.inr (Or.inr he))⟩

-- by its own time the event does not belong to the instant, and it leads to no context
example : (∀ c ∈ instant.graphs.contexts.allNodes, ∀ n ∈ instant.graphs.instances.allNodes,
    Knowledge.belongs c n = false ∧ contextOfEntity instant.graphs n = none) := by
  decide +kernel

end Trinity

end TriGraph
