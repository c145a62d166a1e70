import TriGraph.Proofs.Adjunction.Membership
import TriGraph.Proofs.Trinity.History

/-!
# Flags

Any truthy value will do where the flag of a given concept is read. The search that leads from a context to a concept
asks for the value `true` instead and passes over every other flag. It then takes the first concept of all.
-/

namespace TriGraph

/-! ## The first node with a property -/

def Store.First (s : Store) (p : Node → Prop) (n : Node) : Prop :=
  p n ∧ ∃ before after, s.allNodes = before ++ n :: after ∧ ∀ m ∈ before, ¬p m

namespace Store.First

variable {s : Store} {p q : Node → Prop} {n m : Node}

theorem iff_find? {b : Node → Bool} (hb : ∀ n, b n = true ↔ p n) : s.First p n ↔ s.allNodes.find? b = some n := by
  rw [List.find?_eq_some_iff_append, hb]
  simp [First, ← hb]

theorem unique (hn : s.First p n) (hm : s.First p m) : n = m := by
  classical
  have hfind : ∀ n, s.First p n ↔ s.allNodes.find? (fun n => decide (p n)) = some n :=
    fun n => iff_find? fun n => decide_eq_true_iff
  exact Option.some.inj (((hfind n).mp hn).symm.trans ((hfind m).mp hm))

theorem mem (h : s.First p n) : n ∈ s.allNodes := by
  obtain ⟨-, before, after, hsplit, -⟩ := h
  rw [hsplit]
  exact List.mem_append_right before List.mem_cons_self

theorem exists_of_mem (hn : n ∈ s.allNodes) (hp : p n) : ∃ m, s.First p m := by
  classical
  have hsome : (s.allNodes.find? fun n => decide (p n)).isSome := List.find?_isSome.mpr ⟨n, hn, decide_eq_true hp⟩
  obtain ⟨m, hm⟩ := Option.isSome_iff_exists.mp hsome
  exact ⟨m, (iff_find? fun n => decide_eq_true_iff).mpr hm⟩

theorem narrow (h : s.First p n) (hqp : ∀ m, q m → p m) (hq : q n) : s.First q n := by
  obtain ⟨-, before, after, hsplit, hbefore⟩ := h
  exact ⟨hq, before, after, hsplit, fun m hm hqm => hbefore m hm (hqp m hqm)⟩

end Store.First

namespace Builtin

section
variable {s : Store} {b : Node → Bool} {p : Node → Prop} (hb : ∀ n, b n = true ↔ p n)
include hb

theorem firstId_eq_some {x : String} : firstId (s.allNodes.filter b) = some x ↔ ∃ n, s.First p n ∧ n.id = x := by
  rw [firstId, List.head?_filter, Option.map_eq_some_iff]
  simp only [Store.First.iff_find? hb]

theorem firstId_eq_none : firstId (s.allNodes.filter b) = none ↔ ∀ n ∈ s.allNodes, ¬p n := by
  rw [firstId, List.head?_filter, Option.map_eq_none_iff, List.find?_eq_none]
  simp only [hb]

end

/-! ## What a flag is taken for -/

def Bears (flag : String) (n : Node) : Prop :=
  ∃ v, n.property? flag = some v ∧ v.truthy = true

def IsConcept (n : Node) : Prop :=
  n.type = Ontology.conceptType

def Flagged (flag : String) (n : Node) : Prop :=
  IsConcept n ∧ Bears flag n

def FlaggedTrue (flag : String) (n : Node) : Prop :=
  IsConcept n ∧ n.property? flag = some (.bool true)

section
variable {flag : String} {c n : Node}

theorem flagged_of_flaggedTrue (h : FlaggedTrue flag n) : Flagged flag n :=
  ⟨h.1, _, h.2, rfl⟩

theorem flagged_iff : flagged flag n = true ↔ Bears flag n := by
  unfold flagged Bears
  cases n.property? flag <;> simp

theorem flaggedFor_iff (hflag : flagOf? (ContextKind.ofNode c) = some flag) :
    Knowledge.flaggedFor c n = true ↔ Bears flag n := by
  rw [Knowledge.flaggedFor, hflag]
  exact flagged_iff

theorem mem_contextsOfConcept_iff {g : Graphs} (hflag : flagOf? (ContextKind.ofNode c) = some flag)
    (hc : c ∈ g.contexts.allNodes) (ht : c.type = (ContextKind.ofNode c).nodeType) :
    c ∈ contextsOfConcept g n ↔ Bears flag n := by
  have hne : ContextKind.temporalType ≠ ContextKind.spatialType := by decide
  have hmem : ∀ type, c ∈ g.contexts.nodesOfType type ↔ c.type = type := by
    intro type
    simp [Store.nodesOfType, hc]
  rw [contextsOfConcept, List.mem_append, ← flagged_iff]
  cases hk : ContextKind.ofNode c with
  | temporal =>
    rw [hk] at ht hflag
    cases hflag
    simp [hmem, ht, ContextKind.nodeType, hne, apply_ite (c ∈ ·)]
  | spatial =>
    rw [hk] at ht hflag
    cases hflag
    simp [hmem, ht, ContextKind.nodeType, hne.symm, apply_ite (c ∈ ·)]
  | _ =>
    rw [hk] at hflag
    cases hflag

end

/-! ## What a context leads to -/

theorem beq_bool {u : Value} {b : Bool} : (u == .bool b) = true ↔ u = .bool b := by
  change Value.same u (.bool b) = true ↔ _
  cases u with
  | bool a => simp [Value.same]
  | _ => simp [Value.same, Value.sameNumber, Value.number?]

theorem plain_of_flagOf? {kind : ContextKind} {flag : String} (h : flagOf? kind = some flag) : '.' ∉ flag.toList := by
  cases kind with
  | temporal =>
    cases h
    decide
  | spatial =>
    cases h
    decide
  | _ => cases h

theorem holds_flaggedConcepts {s : Store} {n : Node} {flag : String} (hflag : '.' ∉ flag.toList) :
    s.holds (flaggedConcepts flag) (.node n) = true ↔ FlaggedTrue flag n := by
  have hconstraint : flaggedConcepts flag = [Clause.ofKey "type" (.eq (.text Ontology.conceptType)),
      Clause.ofKey ("properties." ++ flag) (.eq (.bool true))] := rfl
  simp only [Store.holds, Constraint.matches, hconstraint, clausesHold, Bool.and_true, Bool.and_eq_true, holds_type,
    holds_property hflag, Predicate.test, beq_bool]
  simp [FlaggedTrue, IsConcept, Node.property?, Entity.properties]

variable {g : Graphs} {c : Node} {flag : String}

theorem conceptOfContext_eq_some (hflag : flagOf? (ContextKind.ofNode c) = some flag) {x : String} :
    conceptOfContext g c = some x ↔ (∃ n, g.ontology.First (FlaggedTrue flag) n ∧ n.id = x) ∨
      (∀ n ∈ g.ontology.allNodes, ¬FlaggedTrue flag n) ∧ ∃ n, g.ontology.First IsConcept n ∧ n.id = x := by
  have hmarked : ∀ n, g.ontology.holds (flaggedConcepts flag) (.node n) = true ↔ FlaggedTrue flag n :=
    fun n => holds_flaggedConcepts (plain_of_flagOf? hflag)
  have hconcept : ∀ n : Node, (n.type == Ontology.conceptType) = true ↔ IsConcept n := fun n => beq_iff_eq
  have hsome : ∀ y, firstId (g.ontology.findNodes (flaggedConcepts flag)) = some y ↔
      ∃ n, g.ontology.First (FlaggedTrue flag) n ∧ n.id = y := fun y => firstId_eq_some hmarked
  have hnone : firstId (g.ontology.findNodes (flaggedConcepts flag)) = none ↔
      ∀ n ∈ g.ontology.allNodes, ¬FlaggedTrue flag n := firstId_eq_none hmarked
  have hany : firstId (g.ontology.nodesOfType Ontology.conceptType) = some x ↔
      ∃ n, g.ontology.First IsConcept n ∧ n.id = x := firstId_eq_some hconcept
  rw [← hsome, ← hnone, ← hany, conceptOfContext, hflag]
  dsimp only
  cases firstId (g.ontology.findNodes (flaggedConcepts flag)) <;> simp

theorem first_flagged_iff (hg : g.ontology.Reachable) (hflag : flagOf? (ContextKind.ofNode c) = some flag) {n : Node}
    (hn : g.ontology.First (Flagged flag) n) :
    conceptOfContext g c = some n.id ↔ n.property? flag = some (.bool true) ∨
      g.ontology.First IsConcept n ∧ ∀ m ∈ g.ontology.allNodes, ¬FlaggedTrue flag m := by
  have heq : ∀ {p : Node → Prop} {m : Node}, g.ontology.First p m → m.id = n.id → m = n :=
    fun hm hid => hg.linked.nodes.eq_of_key_eq hm.mem hn.mem hid
  rw [conceptOfContext_eq_some hflag]
  constructor
  · rintro (⟨m, hm, hid⟩ | ⟨hnone, m, hm, hid⟩)
    · obtain rfl := heq hm hid
      exact Or.inl hm.1.2
    · obtain rfl := heq hm hid
      exact Or.inr ⟨hm, hnone⟩
  · rintro (htrue | ⟨hfirst, hnone⟩)
    · exact Or.inl ⟨n, hn.narrow (fun m hm => flagged_of_flaggedTrue hm) ⟨hn.1.1, htrue⟩, rfl⟩
    · exact Or.inr ⟨hnone, n, hfirst, rfl⟩

/-- A context leads to the first flagged concept just if that is flagged with `true`, or is the first concept in a
store without such flags. -/
theorem leads_to_first_flagged_iff (hg : g.ontology.Reachable) (hflag : flagOf? (ContextKind.ofNode c) = some flag) :
    ((∃ m ∈ g.ontology.allNodes, Flagged flag m) → ∃ n, g.ontology.First (Flagged flag) n ∧
      (conceptOfContext g c = some n.id ↔ n.property? flag = some (.bool true) ∨
        g.ontology.First IsConcept n ∧ ∀ m ∈ g.ontology.allNodes, ¬FlaggedTrue flag m) ∧
      ((∀ m ∈ g.ontology.allNodes, ∀ v, m.property? flag = some v → ∃ b, v = .bool b) →
        conceptOfContext g c = some n.id)) ∧
    ∀ n, (Knowledge.flaggedFor c n = true ↔ Bears flag n) ∧
      (c ∈ g.contexts.allNodes → c.type = (ContextKind.ofNode c).nodeType →
        (c ∈ contextsOfConcept g n ↔ Bears flag n)) := by
  refine ⟨fun ⟨m, hm, hflagged⟩ => ?_, fun n => ⟨flaggedFor_iff hflag, fun hc ht => ?_⟩⟩
  · obtain ⟨n, hn⟩ := Store.First.exists_of_mem hm hflagged
    refine ⟨n, hn, first_flagged_iff hg hflag hn, fun hbool => (first_flagged_iff hg hflag hn).mpr (Or.inl ?_)⟩
    obtain ⟨v, hv, htruthy⟩ := hn.1.2
    obtain ⟨b, rfl⟩ := hbool n hn.mem v hv
    cases b with
    | true => exact hv
    | false => cases htruthy
  · exact mem_contextsOfConcept_iff hflag hc ht

def era : Node := Ontology.concept "Era" [("temporal", .bool true)]

def region : Node := Ontology.concept "Region" [("spatial", .int 1)]

def medieval : Node := Contexts.temporal "medieval" (.int 500) (.int 1500) []

def europe : Node := Contexts.spatial "europe" "Europe" []

def atlas : Trinity :=
  ((Trinity.new "Atlas").mapStore .ontology (·.run [.addNode (Ontology.concept "Person" []), .addNode era,
    .addNode region])).mapStore .contexts (·.run [.addNode medieval, .addNode europe])

theorem reachable_atlas : atlas.graphs.ontology.Reachable :=
  (((Trinity.Built.new "Atlas").run .ontology _).run .contexts _).store .ontology

theorem first_era : atlas.graphs.ontology.First (Flagged "temporal") era := by
  refine ⟨⟨rfl, _, rfl, rfl⟩, [Ontology.concept "Person" []], [region], rfl, fun m hm ⟨_, v, hv, _⟩ => ?_⟩
  cases List.mem_singleton.mp hm
  cases hv

theorem first_region : atlas.graphs.ontology.First (Flagged "spatial") region := by
  refine ⟨⟨rfl, _, rfl, by decide⟩, [Ontology.concept "Person" [], era], [], rfl, fun m hm ⟨_, v, hv, _⟩ => ?_⟩
  simp only [List.mem_cons, List.not_mem_nil, or_false] at hm
  rcases hm with rfl | rfl <;> cases hv

/-- The era is found from its context; the region is not, although it leads to its own. -/
theorem leads_to_first_flagged_iff_atlas : atlas.graphs.ontology.Reachable ∧
    flagOf? (ContextKind.ofNode medieval) = some "temporal" ∧
    atlas.graphs.ontology.First (Flagged "temporal") era ∧ conceptOfContext atlas.graphs medieval = some era.id ∧
    flagOf? (ContextKind.ofNode europe) = some "spatial" ∧ europe ∈ atlas.graphs.contexts.allNodes ∧
    europe ∈ contextsOfConcept atlas.graphs region := by
  have htemporal : flagOf? (ContextKind.ofNode medieval) = some "temporal" := by decide +kernel
  have hspatial : flagOf? (ContextKind.ofNode europe) = some "spatial" := by decide +kernel
  have heurope : europe ∈ atlas.graphs.contexts.allNodes := List.mem_cons_of_mem _ (List.mem_singleton_self _)
  obtain ⟨n, hn, hleads, -⟩ :=
    (leads_to_first_flagged_iff reachable_atlas htemporal).1 ⟨era, first_era.mem, first_era.1⟩
  obtain rfl := hn.unique first_era
  have hcontexts := ((leads_to_first_flagged_iff reachable_atlas hspatial).2 region).2 heurope (by decide +kernel)
  exact ⟨reachable_atlas, htemporal, hn, hleads.mpr (Or.inl rfl), hspatial, heurope,
    hcontexts.mpr first_region.1.2⟩

/-- The region is the only concept flagged for space, and its context leads to the person. -/
theorem flagged_passed_over : atlas.graphs.ontology.Reachable ∧ ContextKind.ofNode europe = .spatial ∧
    atlas.graphs.ontology.First (Flagged "spatial") region ∧
    conceptOfContext atlas.graphs europe = some "Person" ∧ region.id ≠ "Person" :=
  ⟨reachable_atlas, by decide +kernel, first_region, by decide +kernel, by decide⟩

end Builtin

end TriGraph
