import TriGraph.Knowledge.Relevance
import TriGraph.Proofs.Store.Lookup
import TriGraph.Proofs.Value.Equality
import TriGraph.Proofs.Value.Order

/-!
# Entities in contexts

Whether an entity belongs to a context is asked of the two nodes, by a constraint that the context puts to entities,
and by one that the entity puts to contexts. The two constraints compare the same values from opposite sides.
-/

namespace TriGraph

/-! ## Belonging -/

namespace Knowledge

variable {c n : Node}

theorem belongs_temporal (hc : ContextKind.ofNode c = .temporal) : belongs c n = true ↔
    ∃ time first last, n.property? Builtin.timestamp = some time ∧ c.property? Contexts.startTime = some first ∧
      c.property? Contexts.endTime = some last ∧ first.atMost time = true ∧ time.atMost last = true := by
  simp only [belongs, hc, inInterval]
  cases n.property? Builtin.timestamp <;> cases c.property? Contexts.startTime <;>
    cases c.property? Contexts.endTime <;> simp

theorem belongs_spatial (hc : ContextKind.ofNode c = .spatial) : belongs c n = true ↔
    ∃ place here, n.property? Contexts.location = some place ∧ c.property? Contexts.location = some here ∧
      (here == place) = true := by
  simp only [belongs, hc, agreeOn]
  cases n.property? Contexts.location <;> cases c.property? Contexts.location <;> simp

end Knowledge

open Knowledge

namespace Builtin

theorem isAt_iff {place : Value} {n : Node} :
    isAt place n = true ↔ ∃ here, n.property? Contexts.location = some here ∧ (here == place) = true := by
  unfold isAt
  cases n.property? Contexts.location <;> simp

theorem ofNode_of_temporalType {c : Node} (h : c.type = ContextKind.temporalType) :
    ContextKind.ofNode c = .temporal := by
  have ht : ContextKind.ofName ContextKind.temporalType = .temporal := by decide +kernel
  rwa [← h] at ht

theorem ofNode_of_spatialType {c : Node} (h : c.type = ContextKind.spatialType) :
    ContextKind.ofNode c = .spatial := by
  have hs : ContextKind.ofName ContextKind.spatialType = .spatial := by decide +kernel
  rwa [← h] at hs

/-! ## What an entity asks of contexts -/

theorem holds_type {find : NodeLookup} {n : Node} {type : String} :
    (Clause.ofKey "type" (.eq (.text type))).holds find (.node n) = true ↔ n.type = type := by
  change (Value.text n.type == .text type) = true ↔ _
  rw [Value.beq_text, Value.text.injEq]

section
variable {s : Store} {c n : Node} {v : Value}

theorem holds_during : s.holds (during v) (.node c) = true ↔ c.type = ContextKind.temporalType ∧
    ∃ first last, c.property? Contexts.startTime = some first ∧ c.property? Contexts.endTime = some last ∧
      first.atMost v = true ∧ v.atMost last = true := by
  have hconstraint : during v = [Clause.ofKey "type" (.eq (.text ContextKind.temporalType)),
      .all [[Clause.ofKey ("properties." ++ Contexts.startTime) (.compare .lte v)],
        [Clause.ofKey ("properties." ++ Contexts.endTime) (.compare .gte v)]]] := rfl
  have hstart : '.' ∉ Contexts.startTime.toList := by decide
  have hend : '.' ∉ Contexts.endTime.toList := by decide
  simp only [Store.holds, Constraint.matches, hconstraint, clausesHold, Clause.holds, allHold, Bool.and_true,
    Bool.and_eq_true, holds_type, holds_property hstart, holds_property hend, Predicate.test, Value.atLeast_comm]
  constructor
  · intro h
    obtain ⟨ht, ⟨first, hf, hfv⟩, last, hl, hvl⟩ := h
    exact ⟨ht, first, last, hf, hl, hfv, hvl⟩
  · intro h
    obtain ⟨ht, first, last, hf, hl, hfv, hvl⟩ := h
    exact ⟨ht, ⟨first, hf, hfv⟩, last, hl, hvl⟩

theorem holds_placedAt : s.holds (placedAt v) (.node c) = true ↔ c.type = ContextKind.spatialType ∧
    ∃ here, c.property? Contexts.location = some here ∧ (here == v) = true := by
  have hconstraint : placedAt v = [Clause.ofKey "type" (.eq (.text ContextKind.spatialType)),
      Clause.ofKey ("properties." ++ Contexts.location) (.eq v)] := rfl
  have hlocation : '.' ∉ Contexts.location.toList := by decide
  simp only [Store.holds, Constraint.matches, hconstraint, clausesHold, Bool.and_true, Bool.and_eq_true, holds_type,
    holds_property hlocation, Predicate.test]
  rfl

theorem mem_candidates {g : Graphs} :
    c ∈ contextsFor g during (n.property? timestamp) ++ contextsFor g placedAt (n.property? Contexts.location) ↔
      c ∈ g.contexts.allNodes ∧ (c.type = ContextKind.temporalType ∨ c.type = ContextKind.spatialType) ∧
        belongs c n = true := by
  have htime : c ∈ contextsFor g during (n.property? timestamp) ↔
      c ∈ g.contexts.allNodes ∧ c.type = ContextKind.temporalType ∧ belongs c n = true := by
    cases hv : n.property? timestamp with
    | none => simp +contextual [contextsFor, belongs_temporal, ofNode_of_temporalType, hv]
    | some v =>
      simp +contextual [contextsFor, Store.findNodes, holds_during, belongs_temporal, ofNode_of_temporalType, hv]
  have hplace : c ∈ contextsFor g placedAt (n.property? Contexts.location) ↔
      c ∈ g.contexts.allNodes ∧ c.type = ContextKind.spatialType ∧ belongs c n = true := by
    cases hv : n.property? Contexts.location with
    | none => simp +contextual [contextsFor, belongs_spatial, ofNode_of_spatialType, hv]
    | some v =>
      simp +contextual [contextsFor, Store.findNodes, holds_placedAt, belongs_spatial, ofNode_of_spatialType, hv]
  rw [List.mem_append, htime, hplace, ← and_or_left, ← or_and_right]

/-! ## What a context asks of entities -/

theorem holds_membership {k : Constraint} (hk : membership? c = some k) :
    s.holds k (.node n) = true ↔ belongs c n = true := by
  unfold membership? at hk
  split at hk
  · next hc =>
    obtain ⟨place, hp, rfl⟩ := Option.map_eq_some_iff.mp hk
    have hconstraint : Constraint.equals "properties.location" place [] =
        [Clause.ofKey ("properties." ++ Contexts.location) (.eq place)] := rfl
    have hlocation : '.' ∉ Contexts.location.toList := by decide
    rw [belongs_spatial hc]
    simp only [Store.holds, Constraint.matches, hconstraint, clausesHold, Bool.and_true, holds_property hlocation,
      Predicate.test, hp, Option.some.injEq]
    constructor
    · intro h
      obtain ⟨u, hu, he⟩ := h
      exact ⟨u, place, hu, rfl, by rw [Value.beq_comm, he]⟩
    · intro h
      obtain ⟨u, _, hu, rfl, he⟩ := h
      exact ⟨u, hu, by rw [Value.beq_comm, he]⟩
  · next hc =>
    split at hk
    · next first last hf hl =>
      cases hk
      have hconstraint : Constraint.withAll [Constraint.compare "properties.timestamp" .gte first [],
          Constraint.compare "properties.timestamp" .lte last []] [] =
          [.all [[Clause.ofKey ("properties." ++ timestamp) (.compare .gte first)],
            [Clause.ofKey ("properties." ++ timestamp) (.compare .lte last)]]] := rfl
      have htimestamp : '.' ∉ timestamp.toList := by decide
      rw [belongs_temporal hc]
      simp only [Store.holds, Constraint.matches, hconstraint, clausesHold, Clause.holds, allHold, Bool.and_true,
        Bool.and_eq_true, holds_property htimestamp, Predicate.test, Value.atLeast_comm, hf, hl, Option.some.injEq]
      constructor
      · intro h
        obtain ⟨⟨time, ht, hft⟩, time', ht', htl⟩ := h
        cases ht.symm.trans ht'
        exact ⟨time, first, last, ht, rfl, rfl, hft, htl⟩
      · intro h
        obtain ⟨time, _, _, ht, rfl, rfl, hft, htl⟩ := h
        exact ⟨⟨time, ht, hft⟩, time, ht, htl⟩
    · cases hk
  · cases hk

theorem exists_membership (hc : ContextKind.ofNode c = .temporal ∨ ContextKind.ofNode c = .spatial)
    (hb : belongs c n = true) : ∃ k, membership? c = some k := by
  unfold membership?
  rcases hc with hc | hc
  · obtain ⟨_, first, last, -, hf, hl, -⟩ := (belongs_temporal hc).mp hb
    rw [hc, hf, hl]
    exact ⟨_, rfl⟩
  · obtain ⟨_, place, -, hp, -⟩ := (belongs_spatial hc).mp hb
    rw [hc, hp]
    exact ⟨_, rfl⟩

/-! ## What they find -/

theorem mem_of_firstId {ns : List Node} {x : String} (h : firstId ns = some x) : ∃ n ∈ ns, n.id = x := by
  obtain ⟨n, hn, rfl⟩ := Option.map_eq_some_iff.mp h
  exact ⟨n, List.mem_of_mem_head? hn, rfl⟩

variable {g : Graphs} {x : String}

theorem exists_of_contextOfEntity (h : contextOfEntity g n = some x) : ∃ c ∈ g.contexts.allNodes, c.id = x ∧
    (c.type = ContextKind.temporalType ∨ c.type = ContextKind.spatialType) ∧ belongs c n = true := by
  obtain ⟨c, hc, hx⟩ := mem_of_firstId h
  obtain ⟨hc, ht, hb⟩ := mem_candidates.mp hc
  exact ⟨c, hc, hx, ht, hb⟩

theorem isSome_contextOfEntity (hc : c ∈ g.contexts.allNodes)
    (ht : c.type = ContextKind.temporalType ∨ c.type = ContextKind.spatialType) (hb : belongs c n = true) :
    (contextOfEntity g n).isSome := by
  rw [contextOfEntity, firstId, Option.isSome_map, List.isSome_head?]
  exact List.ne_nil_of_mem (mem_candidates.mpr ⟨hc, ht, hb⟩)

theorem exists_of_entityOfContext (h : entityOfContext g c = some x) :
    ∃ n ∈ g.instances.allNodes, n.id = x ∧ belongs c n = true := by
  obtain ⟨k, hk, h⟩ := Option.bind_eq_some_iff.mp h
  obtain ⟨n, hn, hx⟩ := mem_of_firstId h
  obtain ⟨hn, hs⟩ := List.mem_filter.mp hn
  exact ⟨n, hn, hx, (holds_membership hk).mp hs⟩

end

end Builtin

end TriGraph
