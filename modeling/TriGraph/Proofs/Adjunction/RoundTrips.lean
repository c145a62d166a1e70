import TriGraph.Proofs.Adjunction.Membership
import TriGraph.Proofs.Trinity.History

/-!
# Round trips

An entity that a concept leads to leads back to it. An entity that leads to a context belongs to it, and so the
context leads to the first that belongs to it. That one need not lead back to the same context, but it leads to one.
-/

namespace TriGraph

def Store.AtOrBefore (s : Store) (m n : Node) : Prop :=
  ∃ before after, s.allNodes = before ++ m :: after ∧ n ∈ m :: after

namespace Builtin

variable {g : Graphs}

/-! ## Concepts and entities -/

theorem mem_ofConcept {concept : String} {n : Node} : n ∈ Instances.ofConcept concept g.instances ↔
    n ∈ g.instances.allNodes ∧ n.property? Instances.conceptId = some (.text concept) := by
  have hplain : '.' ∉ Instances.conceptId.toList := by decide
  exact List.mem_filter.trans (and_congr_right fun _ => matches_text hplain)

theorem conceptOfEntity_of_mem (ho : g.ontology.Linked) {c n : Node} (hc : c ∈ g.ontology.allNodes) (hid : c.id ≠ "")
    (hn : n ∈ Instances.ofConcept c.id g.instances) : conceptOfEntity g n = some c.id := by
  have hempty : c.id.isEmpty = false := by simpa using hid
  have hget : g.ontology.node? c.id = some c := ho.nodes.get?_of_mem hc
  rw [conceptOfEntity, (mem_ofConcept.mp hn).2]
  simp [hempty, hget]

/-! ## Entities and contexts -/

theorem exists_first {s : Store} {p : Node → Bool} {n : Node} (hn : n ∈ s.allNodes) (hp : p n = true) :
    ∃ m, firstId (s.allNodes.filter p) = some m.id ∧ p m = true ∧ s.AtOrBefore m n := by
  obtain ⟨m, hm⟩ := Option.isSome_iff_exists.mp (List.find?_isSome.mpr ⟨n, hn, hp⟩)
  obtain ⟨hpm, before, after, hsplit, hbefore⟩ := List.find?_eq_some_iff_append.mp hm
  refine ⟨m, ?_, hpm, before, after, hsplit, ?_⟩
  · rw [firstId, List.head?_filter, hm]
    rfl
  · rw [hsplit] at hn
    rcases List.mem_append.mp hn with h | h
    · have := hbefore n h
      rw [hp] at this
      cases this
    · exact h

theorem exists_entityOfContext {c n : Node} (hn : n ∈ g.instances.allNodes)
    (ht : c.type = ContextKind.temporalType ∨ c.type = ContextKind.spatialType)
    (hb : Knowledge.belongs c n = true) :
    ∃ m, entityOfContext g c = some m.id ∧ Knowledge.belongs c m = true ∧ g.instances.AtOrBefore m n := by
  obtain ⟨k, hk⟩ := exists_membership (ht.imp ofNode_of_temporalType ofNode_of_spatialType) hb
  obtain ⟨m, hm, hs, hle⟩ := exists_first (p := fun n => g.instances.holds k (.node n)) hn
    ((holds_membership hk).mpr hb)
  refine ⟨m, ?_, (holds_membership hk).mp hs, hle⟩
  rw [entityOfContext, hk]
  exact hm

/-- From a concept to an entity and back is nowhere else; from an entity to a context and back is to an entity at or
before it. -/
theorem round_trips (hg : ∀ l, (g.store l).Reachable) :
    (∀ c ∈ g.ontology.allNodes, c.id ≠ "" → ∀ i, entityOfConcept g c = some i →
      ∃ n, g.instances.node? i = some n ∧ conceptOfEntity g n = some c.id) ∧
    ∀ n ∈ g.instances.allNodes, ∀ x, contextOfEntity g n = some x →
      ∃ c, g.contexts.node? x = some c ∧ ∃ m, entityOfContext g c = some m.id ∧ g.instances.AtOrBefore m n ∧
        (contextOfEntity g m).isSome := by
  refine ⟨fun c hc hid i hi => ?_, fun n hn x hx => ?_⟩
  · obtain ⟨n, hn, rfl⟩ := mem_of_firstId hi
    have hentity := (mem_ofConcept.mp hn).1
    exact ⟨n, (hg .instances).linked.nodes.get?_of_mem hentity,
      conceptOfEntity_of_mem (hg .ontology).linked hc hid hn⟩
  · obtain ⟨c, hc, rfl, ht, hb⟩ := exists_of_contextOfEntity hx
    obtain ⟨m, hm, hbm, hle⟩ := exists_entityOfContext hn ht hb
    exact ⟨c, (hg .contexts).linked.nodes.get?_of_mem hc, m, hm, hle, isSome_contextOfEntity hc ht hbm⟩

def playwrights : Trinity :=
  (((Trinity.new "Playwrights").mapStore .ontology (·.run [.addNode (Ontology.concept "Author" [])])).mapStore .contexts
    (·.run [.addNode (Contexts.temporal "plague" (.int 1592) (.float 1594.0) []),
      .addNode (Contexts.temporal "era" (.float 1564.5) (.int 1616) [])])).mapStore .instances
        (·.run [.addNode (Instances.entity "marlowe" "Author" [("timestamp", .float 1593.0)]),
          .addNode (Instances.entity "shakespeare" "Author" [("timestamp", .int 1600)])])

theorem built_playwrights : playwrights.Built :=
  (((Trinity.Built.new "Playwrights").run .ontology _).run .contexts _).run .instances _

theorem round_trips_playwrights :
    (∀ l, (playwrights.graphs.store l).Reachable) ∧
    entityOfConcept playwrights.graphs (Ontology.concept "Author" []) = some "marlowe" ∧
    (∃ n, playwrights.graphs.instances.node? "marlowe" = some n ∧
      conceptOfEntity playwrights.graphs n = some "Author") ∧
    ∃ n ∈ playwrights.graphs.instances.allNodes, n.id = "shakespeare" ∧
      contextOfEntity playwrights.graphs n = some "era" ∧
      ∃ c, playwrights.graphs.contexts.node? "era" = some c ∧
        ∃ m, entityOfContext playwrights.graphs c = some m.id ∧ playwrights.graphs.instances.AtOrBefore m n ∧
          (contextOfEntity playwrights.graphs m).isSome := by
  have hg := built_playwrights.store
  have hi : entityOfConcept playwrights.graphs (Ontology.concept "Author" []) = some "marlowe" := by decide +kernel
  have hx : contextOfEntity playwrights.graphs (Instances.entity "shakespeare" "Author" [("timestamp", .int 1600)]) =
      some "era" := by decide +kernel
  obtain ⟨hconcepts, hcontexts⟩ := round_trips hg
  have hs : Instances.entity "shakespeare" "Author" [("timestamp", .int 1600)] ∈
      playwrights.graphs.instances.allNodes := List.mem_cons_of_mem _ (List.mem_singleton_self _)
  exact ⟨hg, hi, hconcepts _ (List.mem_singleton_self _) (by decide) _ hi, _, hs, rfl, hx, hcontexts _ hs _ hx⟩

-- the way back from the era is to the other, who leads to the plague
example : (playwrights.graphs.contexts.node? "era").bind (entityOfContext playwrights.graphs) = some "marlowe" ∧
    (playwrights.graphs.instances.node? "marlowe").bind (contextOfEntity playwrights.graphs) = some "plague" := by
  decide +kernel

end Builtin

end TriGraph
