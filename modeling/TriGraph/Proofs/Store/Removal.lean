import TriGraph.Proofs.Store.InPlace
import TriGraph.Proofs.Store.Upkeep

/-!
# Removing a node

The ids of the edges at a node are collected first and their edges then removed one by one, while the tables and all
indexes shift under the list. Ids are not shared, so each step takes just the edge that was meant.
-/

namespace TriGraph.Store

variable {s t : Store}

/-! ## The indexes as they were set up -/

def shelf (s : Store) : List (String × Index) :=
  s.indexes.map fun (name, i) => (name, i.blank)

theorem shelf_mapIndexes {f : Index → Index} (hf : ∀ i, (f i).blank = i.blank) (s : Store) :
    (s.mapIndexes f).shelf = s.shelf := by
  simp [shelf, mapIndexes, hf]

theorem shelf_removeEdge (id : String) (s : Store) : ((s.removeEdge id).getD s).shelf = s.shelf := by
  unfold removeEdge
  cases s.edge? id with
  | none => rfl
  | some e => exact shelf_mapIndexes (Index.blank_remove · _) _

theorem shelf_removeEdges (ids : List String) (s : Store) : (removeEdges ids s).shelf = s.shelf := by
  induction ids generalizing s with
  | nil => rfl
  | cons id ids ih => rw [removeEdges, ih, shelf_removeEdge]

theorem shelf_dropNode (n : Node) (s : Store) : (s.dropNode n).shelf = s.shelf :=
  shelf_mapIndexes (Index.blank_remove · (.node n)) _

/-! ## What is left -/

structure Without (s : Store) (id : String) (t : Store) : Prop where
  nodes : t.allNodes = s.allNodes.filter (·.id ≠ id)
  edges : t.allEdges = s.allEdges.filter fun e => e.source ≠ id ∧ e.target ≠ id
  node? : ∀ k, t.node? k = (s.node? k).filter (·.id ≠ id)
  edge? : ∀ k, t.edge? k = (s.edge? k).filter fun e => e.source ≠ id ∧ e.target ≠ id
  shelf : t.shelf = s.shelf
  records : ∀ name i, t.index? name = some i → i.Records t.Contains
  rebuilt : ∀ name i, t.index? name = some i → (t.rebuild i).map Index.snapshot = .ok i.snapshot

namespace Linked

variable (h : s.Linked)
include h

theorem exists_of_removeNode {id : String} (ht : s.removeNode id = some t) :
    ∃ n : Node, n.id = id ∧ (removeEdges (s.incident id) s).dropNode n = t := by
  obtain ⟨n, hn, -⟩ := Option.map_eq_some_iff.mp ht
  obtain ⟨-, hid⟩ := h.nodes.get?_eq_some.mp hn
  rw [h.removeNode_eq hn] at ht
  exact ⟨n, hid, Option.some.inj ht⟩

theorem not_mem_incident_iff {e : Edge} (he : e ∈ s.allEdges) {id : String} :
    e.id ∉ s.incident id ↔ e.source ≠ id ∧ e.target ≠ id := by
  have hids : e.id ∈ s.incident id ↔ e.touches id = true := by
    unfold incident
    rw [List.mem_map]
    constructor
    · rintro ⟨f, hf, hid⟩
      obtain ⟨hf, ht⟩ := List.mem_filter.mp hf
      rw [← h.edges.eq_of_key_eq hf he hid]
      exact ht
    · intro ht
      exact ⟨e, List.mem_filter.mpr ⟨he, ht⟩, rfl⟩
  rw [hids]
  simp [Edge.touches]

theorem allNodes_removeNode {id : String} (ht : s.removeNode id = some t) :
    t.allNodes = s.allNodes.filter (·.id ≠ id) := by
  obtain ⟨n, rfl, rfl⟩ := h.exists_of_removeNode ht
  change ((removeEdges (s.incident n.id) s).nodes.remove n.id).values = _
  rw [nodes_removeEdges]
  exact h.nodes.values_remove n.id

theorem allEdges_removeNode {id : String} (ht : s.removeNode id = some t) :
    t.allEdges = s.allEdges.filter fun e => e.source ≠ id ∧ e.target ≠ id := by
  obtain ⟨n, -, rfl⟩ := h.exists_of_removeNode ht
  refine (h.allEdges_removeEdges (s.incident id)).trans (List.filter_congr fun e he => ?_)
  exact decide_eq_decide.mpr (h.not_mem_incident_iff he)

theorem shelf_removeNode {id : String} (ht : s.removeNode id = some t) : t.shelf = s.shelf := by
  obtain ⟨n, -, rfl⟩ := h.exists_of_removeNode ht
  rw [shelf_dropNode, shelf_removeEdges]

end Linked

theorem without_removeNode (hs : s.Reachable) {id : String} (ht : s.removeNode id = some t) : s.Without id t := by
  have hl := hs.linked
  have hnodes := hl.allNodes_removeNode ht
  have hedges := hl.allEdges_removeNode ht
  have hstep : s.step (.removeNode id) = t := congrArg (·.getD s) ht
  have htr : t.Reachable := hstep ▸ hs.step (.removeNode id)
  exact {
    nodes := hnodes
    edges := hedges
    node? := hl.nodes.get?_of_values_filter htr.linked.nodes hnodes
    edge? := hl.edges.get?_of_values_filter htr.linked.edges hedges
    shelf := hl.shelf_removeNode ht
    records := fun name i hi => (htr.current name i hi).records
    rebuilt := fun name i hi => (htr.current name i hi).snapshot_eq }

/-- A node that is there goes, and with it just the edges that start or end there; the rest keeps its order, and every
index keeps just the rest. -/
theorem run_removeNode_without (hs : s.Reachable) (id : String) :
    ((∀ n ∈ s.allNodes, n.id ≠ id) → (InPlace.removeNode id).run s = (false, s)) ∧
      ((∃ n ∈ s.allNodes, n.id = id) → ∃ t, (InPlace.removeNode id).run s = (true, t) ∧ s.Without id t) := by
  have hl := hs.linked
  rw [InPlace.run_removeNode s hl]
  constructor
  · intro hn
    have hnone : s.removeNode id = none := by
      refine Option.map_eq_none_iff.mpr (Option.eq_none_iff_forall_ne_some.mpr fun n hid => ?_)
      obtain ⟨hm, hid⟩ := hl.nodes.get?_eq_some.mp hid
      exact hn n hm hid
    rw [hnone]
    rfl
  · rintro ⟨n, hm, rfl⟩
    have ht := hl.removeNode_eq (hl.nodes.get?_of_mem hm)
    rw [ht]
    exact ⟨_, rfl, without_removeNode hs ht⟩

def knotted : List Command :=
  [.createIndex "color" .ordered ["node.properties.color"], .createIndex "type" .hash ["edge.type"],
    .addNode { id := "c", type := "T", properties := [("color", .text "red")] },
    .addNode { id := "a", type := "T", properties := [("color", .text "red")] },
    .addNode { id := "b", type := "T" },
    .addEdge { id := "y", source := "a", target := "b", type := "R" },
    .addEdge { id := "w", source := "c", target := "b", type := "R" },
    .addEdge { id := "x", source := "a", target := "a", type := "L" },
    .addEdge { id := "z", source := "a", target := "b", type := "R" },
    .addEdge { id := "u", source := "b", target := "a", type := "R" },
    .addEdge { id := "v", source := "b", target := "b", type := "L" }]

theorem run_removeNode_knotted :
    (∃ t, (InPlace.removeNode "a").run ((new "g" []).run knotted) = (true, t) ∧
      t.allNodes.map (·.id) = ["c", "b"] ∧ t.allEdges.map (·.id) = ["w", "v"] ∧
      (t.index? "color").map (·.buckets) = some [(.text "red", ["c"])] ∧
      (t.index? "type").map (·.buckets) = some [(.text "L", ["v"]), (.text "R", ["w"])] ∧
      ((new "g" []).run knotted).Without "a" t) ∧
    (InPlace.removeNode "d").run ((new "g" []).run knotted) = (false, (new "g" []).run knotted) := by
  have hs : ((new "g" []).run knotted).Reachable := (Reachable.start "g" fresh_nil).run knotted
  constructor
  · obtain ⟨t, ht, hw⟩ := (run_removeNode_without hs "a").2 (by decide +kernel)
    refine ⟨t, ht, ?_, ?_, ?_, ?_, hw⟩ <;> cases ht <;> decide +kernel
  · exact (run_removeNode_without hs "d").1 (by decide +kernel)

end TriGraph.Store
