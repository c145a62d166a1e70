import TriGraph.Proofs.Adjunction.Flags
import TriGraph.Proofs.Adjunction.Targets

/-!
# Applicability

Interpretation leads from every context to a concept as soon as there is one, and no pair of concepts is incompatible.
So whatever the ontology holds applies in every context.
-/

namespace TriGraph

open Builtin

namespace Knowledge

variable {k : Knowledge} {m : Memo} {s c : Node}

theorem Furnished.applicability (hf : k.Furnished) : k.adjunction? applicability =
    some ⟨Builtin.applicability, .ontology, .contexts, contextOfConcept, conceptOfContext⟩ :=
  hf ⟨Builtin.applicability, _, _, _, _⟩ (by simp [Builtin.adjunctions])

theorem Furnished.interpretation (hf : k.Furnished) : k.adjunction? interpretation =
    some ⟨Builtin.interpretation, .contexts, .ontology, conceptOfContext, contextOfConcept⟩ :=
  hf ⟨Builtin.interpretation, _, _, _, _⟩ (by simp [Builtin.adjunctions])

theorem Furnished.equipped (hf : k.Furnished) : k.Equipped := by
  intro name hname
  obtain ⟨a, ha, rfl⟩ := List.mem_map.mp hname
  exact Option.isSome_iff_exists.mpr ⟨a, hf a ha⟩

/-! ## Applicability without a memo -/

def applies (k : Knowledge) (s c : Node) : Bool :=
  ((contextOfConcept k.graphs s).bind (k.node? .contexts)).any (k.contextsCompatible · c)
    || ((conceptOfContext k.graphs c).bind (k.node? .ontology)).any (k.conceptsCompatible · s) || flaggedFor c s

section
variable (hk : k.Named) (hf : k.Furnished) (hm : k.Truthful m) (hs : k.node? .ontology s.id = some s)
  (hc : k.node? .contexts c.id = some c)
include hk hf hm hs hc

theorem settled_conceptApplies : Settled k m (k.conceptApplies s c) (k.applies s c) := by
  have hcontext : Settled k m (k.mapped? Builtin.applicability .contexts s.id)
      ((contextOfConcept k.graphs s).bind (k.node? .contexts)) :=
    settled_mapped?_of_node hk hm hf.applicability hs .contexts
  have hconcept : Settled k m (k.mapped? Builtin.interpretation .ontology c.id)
      ((conceptOfContext k.graphs c).bind (k.node? .ontology)) :=
    settled_mapped?_of_node hk hm hf.interpretation hc .ontology
  unfold conceptApplies applies
  refine hcontext.bind ?_
  cases ((contextOfConcept k.graphs s).bind (k.node? .contexts)).any (k.contextsCompatible · c) with
  | true => exact .pure true
  | false =>
    refine hconcept.bind ?_
    cases ((conceptOfContext k.graphs c).bind (k.node? .ontology)).any (k.conceptsCompatible · s) with
    | true => exact .pure true
    | false => exact .pure _

theorem settled_applies : Settled k m (k.applicable s.id c.id) (k.applies s c) := by
  unfold applicable
  rw [hs, hc]
  exact settled_conceptApplies hk hf hm hs hc

end

/-! ## With a concept -/

theorem isSome_conceptOfContext {g : Graphs} {n : Node} (hn : n ∈ g.ontology.allNodes) (hconcept : IsConcept n) :
    ∃ x, conceptOfContext g c = some x := by
  have hmem : n ∈ g.ontology.nodesOfType Ontology.conceptType := List.mem_filter.mpr ⟨hn, beq_iff_eq.mpr hconcept⟩
  have hany : (firstId (g.ontology.nodesOfType Ontology.conceptType)).isSome := by
    rw [firstId, Option.isSome_map, List.isSome_head?]
    exact List.ne_nil_of_mem hmem
  unfold conceptOfContext
  dsimp only
  split
  · next id _ => exact ⟨id, rfl⟩
  · exact Option.isSome_iff_exists.mp hany

theorem applies_of_concept {n : Node} (hl : k.graphs.ontology.Linked) (hn : n ∈ k.graphs.ontology.allNodes)
    (hconcept : IsConcept n) : k.applies s c = true := by
  obtain ⟨x, hx⟩ := isSome_conceptOfContext (c := c) hn hconcept
  obtain ⟨m, hm, rfl⟩ := landsIn_conceptOfContext k.graphs c x hl hx
  have hget : k.node? .ontology m.id = some m := hl.nodes.get?_of_mem hm
  rw [applies, hx, Option.bind_some, hget, Option.any_some, conceptsCompatible, Bool.or_true, Bool.true_or]

end Knowledge

namespace Trinity

variable {t : Trinity}

theorem Cleared.applicable_eq (h : t.Cleared) (hf : t.knowledge.Furnished) {s c : Node}
    (hs : s ∈ t.graphs.ontology.allNodes) (hc : c ∈ t.graphs.contexts.allNodes) :
    (t.read (.applicable s.id c.id)).1 = .ok (t.knowledge.applies s c) :=
  (Knowledge.settled_applies h.built.reachable.named hf h.truthful
    ((h.built.store .ontology).linked.nodes.get?_of_mem hs)
    ((h.built.store .contexts).linked.nodes.get?_of_mem hc)).answers t.memo .refl

theorem Cleared.applicable_of_concept (h : t.Cleared) (hf : t.knowledge.Furnished)
    (hconcept : ∃ n ∈ t.graphs.ontology.allNodes, IsConcept n) {s c : Node} (hs : s ∈ t.graphs.ontology.allNodes)
    (hc : c ∈ t.graphs.contexts.allNodes) : (t.read (.applicable s.id c.id)).1 = .ok true := by
  obtain ⟨n, hn, hconcept⟩ := hconcept
  rw [h.applicable_eq hf hs hc, Knowledge.applies_of_concept (h.built.store .ontology).linked hn hconcept]

theorem Cleared.not_inapplicable (h : t.Cleared) (hf : t.knowledge.Furnished)
    (hconcept : ∃ n ∈ t.graphs.ontology.allNodes, IsConcept n) {q : Query} {context : Option String}
    (hknown : ¬t.Unknown q context) : ¬t.Inapplicable q context := by
  rintro ⟨id, hid, hfalse⟩
  obtain ⟨hcontext, hsubject⟩ := not_or.mp hknown
  obtain ⟨s, hs⟩ := Option.ne_none_iff_exists'.mp hsubject
  obtain ⟨c, hc⟩ := Option.ne_none_iff_exists'.mp fun hn => hcontext ⟨id, hid, hn⟩
  obtain ⟨hsmem, hsid⟩ := (h.built.store .ontology).linked.nodes.get?_eq_some.mp hs
  obtain ⟨hcmem, rfl⟩ := (h.built.store .contexts).linked.nodes.get?_eq_some.mp hc
  have htrue := h.applicable_of_concept hf hconcept hsmem hcmem
  rw [hsid] at htrue
  cases htrue.symm.trans hfalse

/-- Once there is a concept, everything in the ontology applies in every context, and no query for a concept is
refused as inapplicable. -/
theorem applicable_once_concept (h : t.Cleared) (hf : t.knowledge.Furnished) :
    ((∃ n ∈ t.graphs.ontology.allNodes, IsConcept n) → ∀ s ∈ t.graphs.ontology.allNodes,
      ∀ c ∈ t.graphs.contexts.allNodes, (t.read (.applicable s.id c.id)).1 = .ok true) ∧
    ∀ (q : Query) (context : Option String), (∃ s ∈ t.graphs.ontology.allNodes, s.id = q.subject ∧ IsConcept s) →
      ∃ env, (t.read (.answer q context)).1 = .ok env ∧ env.status ≠ .inapplicable := by
  refine ⟨fun hconcept s hs c hc => h.applicable_of_concept hf hconcept hs hc, fun q context ⟨s, hs, _, hconcept⟩ => ?_⟩
  obtain ⟨env, henv, hunknown, -, hanswered⟩ := answer_spec h.built hf.equipped q context
  refine ⟨env, henv, ?_⟩
  by_cases hu : t.Unknown q context
  · rw [(hunknown hu).1]
    decide
  · rw [(hanswered hu (h.not_inapplicable hf ⟨s, hs, hconcept⟩ hu)).1]
    decide

def ages (concepts : List Store.Command) : Trinity :=
  ((Trinity.new "Ages").mapStore .ontology (·.run (.addNode (Ontology.relation "precedes" []) :: concepts))).mapStore
    .contexts (·.run [.addNode (Contexts.temporal "modern" (.int 1900) (.int 2000) []), .addNode medieval,
      .addEdge (Contexts.relation "modern" "medieval" Contexts.incompatibleWith [])])

def peopled : Trinity :=
  (ages [.addNode (Ontology.concept "Person" [])]).refresh

theorem cleared_peopled : peopled.Cleared :=
  .refresh (((Built.new "Ages").run .ontology _).run .contexts _)

theorem applicable_once_concept_peopled : peopled.Cleared ∧ peopled.knowledge.Furnished ∧
    (peopled.read (.applicable "precedes" "medieval")).1 = .ok true ∧
    ∃ env, (peopled.read (.answer ⟨.conceptInstances, "Person", some "medieval"⟩ none)).1 = .ok env ∧
      env.status ≠ .inapplicable := by
  have hf : peopled.knowledge.Furnished := furnished_new "Ages"
  have hperson : Ontology.concept "Person" [] ∈ peopled.graphs.ontology.allNodes :=
    List.mem_cons_of_mem _ (List.mem_singleton_self _)
  have hmedieval : medieval ∈ peopled.graphs.contexts.allNodes := List.mem_cons_of_mem _ (List.mem_singleton_self _)
  obtain ⟨happlies, hanswered⟩ := applicable_once_concept cleared_peopled hf
  exact ⟨cleared_peopled, hf, happlies ⟨_, hperson, rfl⟩ _ List.mem_cons_self _ hmedieval,
    hanswered ⟨.conceptInstances, "Person", some "medieval"⟩ none ⟨_, hperson, rfl, rfl⟩⟩

-- without the concept the relation type leads to the first time only, which excludes the other
example : ((ages []).read (.applicable "precedes" "medieval")).1.toOption = some false := by
  decide +kernel

end Trinity

end TriGraph
