import TriGraph.Proofs.Store.History

/-!
# Integrity of a store

Every edge of a store refers to nodes that are there, and every entity stands under its own id, which no other one of
its kind shares. An edit keeps that, and every command, down to the single steps of a cascade, is made of edits.
-/

namespace TriGraph.Store

structure Linked (s : Store) : Prop where
  nodes : s.nodes.Keyed Node.id
  edges : s.edges.Keyed Edge.id
  source : ∀ e ∈ s.allEdges, s.hasNode e.source = true
  target : ∀ e ∈ s.allEdges, s.hasNode e.target = true

theorem linked_new (name : String) (indexes : List (String × Index)) : (new name indexes).Linked :=
  ⟨.empty, .empty, fun _ h => (nomatch h), fun _ h => (nomatch h)⟩

namespace Linked

variable {s t : Store}

/-! ## One edit -/

theorem hasNode_iff (h : s.Linked) {id : String} : s.hasNode id = true ↔ ∃ n ∈ s.allNodes, n.id = id :=
  h.nodes.contains_iff

theorem putNode (h : s.Linked) (n : Node) : (s.addNode n).Linked := by
  have hn : (s.addNode n).nodes.Keyed Node.id := by
    rw [addNode_nodes]
    exact h.nodes.put n
  have hkeep : ∀ {id : String}, s.hasNode id = true → (s.addNode n).hasNode id = true := by
    intro id hid
    obtain ⟨m, hm, hid⟩ := h.hasNode_iff.mp hid
    refine hn.contains_iff.mpr ?_
    rw [addNode_nodes]
    simp only [h.nodes.mem_values_put]
    by_cases hmn : m.id = n.id
    · exact ⟨n, Or.inl rfl, hmn.symm.trans hid⟩
    · exact ⟨m, Or.inr ⟨hm, hmn⟩, hid⟩
  have he : (s.addNode n).allEdges = s.allEdges := congrArg Table.values (addNode_edges s n)
  refine ⟨hn, ?_, fun e he' => ?_, fun e he' => ?_⟩
  · rw [addNode_edges]
    exact h.edges
  · exact hkeep (h.source e (he ▸ he'))
  · exact hkeep (h.target e (he ▸ he'))

theorem mem_allEdges_putEdge (h : s.Linked) {d e : Edge} :
    d ∈ (s.putEdge e).allEdges ↔ d = e ∨ (d ∈ s.allEdges ∧ d.id ≠ e.id) := by
  have he : (s.putEdge e).edges = s.edges.put e.id e := by simp [Store.putEdge]
  unfold allEdges
  rw [he]
  exact h.edges.mem_values_put

theorem putEdge (h : s.Linked) {e : Edge} (hs : s.hasNode e.source = true) (ht : s.hasNode e.target = true) :
    (s.putEdge e).Linked := by
  have hn : (s.putEdge e).nodes = s.nodes := by simp [Store.putEdge]
  have he : (s.putEdge e).edges = s.edges.put e.id e := by simp [Store.putEdge]
  refine ⟨hn ▸ h.nodes, he ▸ h.edges.put e, fun d hd => ?_, fun d hd => ?_⟩
  · rw [hasNode_putEdge]
    rcases h.mem_allEdges_putEdge.mp hd with rfl | ⟨hd, -⟩
    · exact hs
    · exact h.source d hd
  · rw [hasNode_putEdge]
    rcases h.mem_allEdges_putEdge.mp hd with rfl | ⟨hd, -⟩
    · exact ht
    · exact h.target d hd

theorem dropEdge (h : s.Linked) (e : Edge) : (s.dropEdge e).Linked := by
  have hmem : ∀ d ∈ (s.dropEdge e).allEdges, d ∈ s.allEdges := fun d hd => (h.edges.mem_values_remove.mp hd).1
  exact ⟨h.nodes, h.edges.remove e.id, fun d hd => h.source d (hmem d hd), fun d hd => h.target d (hmem d hd)⟩

theorem dropNode (h : s.Linked) {n : Node} (hf : ∀ e ∈ s.allEdges, e.touches n.id = false) :
    (s.dropNode n).Linked := by
  have hkeep : ∀ {id : String}, id ≠ n.id → s.hasNode id = true → (s.dropNode n).hasNode id = true := by
    intro id hne hid
    obtain ⟨m, hm, hid⟩ := h.hasNode_iff.mp hid
    refine (h.nodes.remove n.id).contains_iff.mpr ⟨m, ?_, hid⟩
    exact h.nodes.mem_values_remove.mpr ⟨hm, hid ▸ hne⟩
  have hends : ∀ e ∈ s.allEdges, e.source ≠ n.id ∧ e.target ≠ n.id := by
    intro e he
    simpa [Edge.touches] using hf e he
  refine ⟨h.nodes.remove n.id, h.edges, fun e he => ?_, fun e he => ?_⟩
  · exact hkeep (hends e he).1 (h.source e he)
  · exact hkeep (hends e he).2 (h.target e he)

theorem edit (h : s.Linked) (he : Edit s t) : t.Linked := by
  cases he with
  | putNode n => exact h.putNode n
  | putEdge hs ht => exact h.putEdge hs ht
  | dropEdge _ => exact h.dropEdge _
  | dropNode _ hf => exact h.dropNode hf
  | addIndex _ => exact ⟨h.nodes, h.edges, h.source, h.target⟩

theorem edits (h : s.Linked) (he : Edits s t) : t.Linked := by
  induction he with
  | refl => exact h
  | tail _ he ih => exact ih.edit he

/-! ## Removing edges -/

theorem removeEdge_eq (h : s.Linked) {id : String} {e : Edge} (he : s.edge? id = some e) :
    e ∈ s.allEdges ∧ e.id = id ∧ s.removeEdge id = some (s.dropEdge e) := by
  obtain ⟨hm, hid⟩ := h.edges.get?_eq_some.mp he
  refine ⟨hm, hid, ?_⟩
  unfold removeEdge
  rw [he, ← hid]
  rfl

theorem edits_removeEdge (h : s.Linked) (id : String) : Edits s ((s.removeEdge id).getD s) := by
  cases he : s.edge? id with
  | none =>
    unfold removeEdge
    rw [he]
    exact .refl
  | some e =>
    obtain ⟨hm, -, hr⟩ := h.removeEdge_eq he
    rw [hr]
    exact .single (.dropEdge hm)

theorem allEdges_removeEdge (h : s.Linked) (id : String) :
    ((s.removeEdge id).getD s).allEdges = s.allEdges.filter (·.id ≠ id) := by
  cases he : s.edge? id with
  | none =>
    have hr : s.removeEdge id = none := by unfold removeEdge; rw [he]; rfl
    rw [hr]
    refine (List.filter_eq_self.mpr fun e hm => ?_).symm
    rw [decide_eq_true_iff]
    intro hid
    rw [← hid, edge?, h.edges.get?_of_mem hm] at he
    cases he
  | some e =>
    obtain ⟨-, hid, hr⟩ := h.removeEdge_eq he
    rw [hr, ← hid]
    exact h.edges.values_remove e.id

theorem nodes_removeEdge (s : Store) (id : String) : ((s.removeEdge id).getD s).nodes = s.nodes := by
  unfold removeEdge
  cases s.edge? id <;> rfl

theorem edits_removeEdges (h : s.Linked) (ids : List String) : Edits s (removeEdges ids s) := by
  induction ids generalizing s with
  | nil => exact .refl
  | cons id ids ih =>
    have he := h.edits_removeEdge id
    exact he.trans (ih (h.edits he))

theorem allEdges_removeEdges (h : s.Linked) (ids : List String) :
    (removeEdges ids s).allEdges = s.allEdges.filter (·.id ∉ ids) := by
  induction ids generalizing s with
  | nil => simp [removeEdges]
  | cons id ids ih =>
    rw [removeEdges, ih (h.edits (h.edits_removeEdge id)), h.allEdges_removeEdge, List.filter_filter]
    refine List.filter_congr fun e _ => ?_
    simp [Bool.and_comm]

theorem nodes_removeEdges (ids : List String) (s : Store) : (removeEdges ids s).nodes = s.nodes := by
  induction ids generalizing s with
  | nil => rfl
  | cons id ids ih => rw [removeEdges, ih, nodes_removeEdge]

theorem getLastD_removals (ids : List String) (s : Store) : (removals ids s).getLastD s = removeEdges ids s := by
  induction ids generalizing s with
  | nil => rfl
  | cons id ids ih => rw [removals, List.getLastD_cons, ih, removeEdges]

theorem edits_of_mem_removals (h : s.Linked) {ids : List String} (ht : t ∈ removals ids s) : Edits s t := by
  induction ids generalizing s with
  | nil => cases ht
  | cons id ids ih =>
    have he := h.edits_removeEdge id
    rcases List.mem_cons.mp ht with rfl | ht
    · exact he
    · exact he.trans (ih (h.edits he) ht)

/-! ## Commands -/

theorem touches_removed (h : s.Linked) (id : String) :
    ∀ e ∈ (removeEdges (s.incident id) s).allEdges, e.touches id = false := by
  intro e he
  rw [h.allEdges_removeEdges, List.mem_filter, decide_eq_true_iff] at he
  cases ht : e.touches id with
  | false => rfl
  | true => exact absurd (List.mem_map.mpr ⟨e, List.mem_filter.mpr ⟨he.1, ht⟩, rfl⟩) he.2

theorem removeNode_eq (h : s.Linked) {id : String} {n : Node} (hn : s.node? id = some n) :
    s.removeNode id = some ((removeEdges (s.incident id) s).dropNode n) := by
  obtain ⟨-, hid⟩ := h.nodes.get?_eq_some.mp hn
  unfold removeNode
  rw [hn, ← hid]
  rfl

/-- The node goes from the last store of its cascade. -/
theorem removeNode_getLastD_cascade (h : s.Linked) {id : String} {n : Node} (hn : s.node? id = some n) :
    s.removeNode id = some (((s.cascade (.removeNode id)).getLastD s).dropNode n) := by
  have hid : s.hasNode id = true := Table.contains_of_get? hn
  rw [h.removeNode_eq hn, cascade, if_pos hid, getLastD_removals]

theorem edits_removeNode (h : s.Linked) (id : String) : Edits s ((s.removeNode id).getD s) := by
  cases hn : s.node? id with
  | none =>
    unfold removeNode
    rw [hn]
    exact .refl
  | some n =>
    obtain ⟨hm, hid⟩ := h.nodes.get?_eq_some.mp hn
    rw [h.removeNode_eq hn]
    refine (h.edits_removeEdges _).tail (.dropNode ?_ ?_)
    · unfold allNodes
      rw [nodes_removeEdges]
      exact hm
    · rw [hid]
      exact h.touches_removed id

theorem setNodeProperty_eq (h : s.Linked) {id : String} {n : Node} (hn : s.node? id = some n) (name : String)
    (v : Value) : s.setNodeProperty id name v = some (s.addNode (n.setProperty name v)) := by
  obtain ⟨hm, hid⟩ := h.nodes.get?_eq_some.mp hn
  have hm : s.node? (n.setProperty name v).id = some n := h.nodes.get?_of_mem hm
  unfold setNodeProperty addNode
  rw [hn, hm, ← hid]
  rfl

theorem setEdgeProperty_eq (h : s.Linked) {id : String} {e : Edge} (he : s.edge? id = some e) (name : String)
    (v : Value) : s.setEdgeProperty id name v = some (s.putEdge (e.setProperty name v)) := by
  obtain ⟨hm, hid⟩ := h.edges.get?_eq_some.mp he
  have hm : s.edge? (e.setProperty name v).id = some e := h.edges.get?_of_mem hm
  unfold setEdgeProperty Store.putEdge
  rw [he, hm, ← hid]
  rfl

theorem edits_setNodeProperty (h : s.Linked) (id name : String) (v : Value) :
    Edits s ((s.setNodeProperty id name v).getD s) := by
  cases hn : s.node? id with
  | none =>
    unfold setNodeProperty
    rw [hn]
    exact .refl
  | some n =>
    rw [h.setNodeProperty_eq hn]
    exact .single (.putNode _)

theorem edits_setEdgeProperty (h : s.Linked) (id name : String) (v : Value) :
    Edits s ((s.setEdgeProperty id name v).getD s) := by
  cases he : s.edge? id with
  | none =>
    unfold setEdgeProperty
    rw [he]
    exact .refl
  | some e =>
    obtain ⟨hm, -⟩ := h.edges.get?_eq_some.mp he
    rw [h.setEdgeProperty_eq he]
    exact .single (.putEdge (h.source e hm) (h.target e hm))

theorem edits_step (h : s.Linked) (c : Command) : Edits s (s.step c) := by
  cases c with
  | addNode n => exact .single (.putNode n)
  | addEdge e => exact edits_addEdge s e
  | removeNode id => exact h.edits_removeNode id
  | removeEdge id => exact h.edits_removeEdge id
  | setNodeProperty id name v => exact h.edits_setNodeProperty id name v
  | setEdgeProperty id name v => exact h.edits_setEdgeProperty id name v
  | identity id => exact edits_identity s id
  | createIndex name kind paths => exact edits_createIndex s name kind paths

theorem edits_of_mem_cascade (h : s.Linked) {c : Command} (ht : t ∈ s.cascade c) : Edits s t := by
  cases c with
  | removeNode id =>
    by_cases hn : s.hasNode id = true
    · rw [cascade, if_pos hn] at ht
      exact h.edits_of_mem_removals ht
    · rw [cascade, if_neg hn] at ht
      cases ht
  | _ => cases ht

theorem edits_of_mem_history (h : s.Linked) {cs : List Command} (ht : t ∈ s.history cs) : Edits s t := by
  induction cs generalizing s with
  | nil =>
    rcases List.mem_singleton.mp ht with rfl
    exact .refl
  | cons c cs ih =>
    rcases List.mem_cons.mp ht with rfl | ht
    · exact .refl
    rcases List.mem_append.mp ht with ht | ht
    · exact h.edits_of_mem_cascade ht
    · have he := h.edits_step c
      exact he.trans (ih (h.edits he) ht)

end Linked

theorem Reachable.linked {s : Store} (h : s.Reachable) : s.Linked := by
  induction h with
  | start name _ => exact linked_new name _
  | step _ c ih => exact ih.edits (ih.edits_step c)

/-! ## Every store of a history -/

structure Sound (s : Store) : Prop where
  endpoints : ∀ e ∈ s.allEdges, (∃ n ∈ s.allNodes, n.id = e.source) ∧ ∃ n ∈ s.allNodes, n.id = e.target
  ownNode : ∀ id n, s.node? id = some n ↔ n ∈ s.allNodes ∧ n.id = id
  ownEdge : ∀ id e, s.edge? id = some e ↔ e ∈ s.allEdges ∧ e.id = id
  distinctNodes : (s.allNodes.map (·.id)).Nodup
  distinctEdges : (s.allEdges.map (·.id)).Nodup

theorem Linked.sound {s : Store} (h : s.Linked) : s.Sound where
  endpoints e he := ⟨h.hasNode_iff.mp (h.source e he), h.hasNode_iff.mp (h.target e he)⟩
  ownNode _ _ := h.nodes.get?_eq_some
  ownEdge _ _ := h.edges.get?_eq_some
  distinctNodes := h.nodes.distinct
  distinctEdges := h.edges.distinct

/-- Every store of a history is sound, and a node is taken out of the last store of its cascade. -/
theorem sound_of_mem_history (name : String) (indexes : List (String × Index)) (cs : List Command) {s : Store}
    (h : s ∈ (new name indexes).history cs) : s.Sound ∧ ∀ id n, s.node? id = some n →
      s.removeNode id = some (((s.cascade (.removeNode id)).getLastD s).dropNode n) :=
  have hn := linked_new name indexes
  have hl := hn.edits (hn.edits_of_mem_history h)
  ⟨hl.sound, fun _ _ => hl.removeNode_getLastD_cascade⟩

def unravelling : List Command :=
  [.addNode { id := "a", type := "T" }, .addNode { id := "b", type := "T" },
    .addEdge { id := "x", source := "a", target := "a", type := "R" },
    .addEdge { id := "y", source := "a", target := "b", type := "R" },
    .addEdge { id := "z", source := "b", target := "b", type := "R" },
    .addEdge { id := "z", source := "b", target := "a", type := "R" },
    .removeNode "a"]

theorem sound_unravelling :
    ∃ s ∈ (new "g" []).history unravelling, s.allEdges.map (·.id) = ["z"] ∧ s.hasNode "a" = true ∧
      s.Sound ∧ ∀ id n, s.node? id = some n →
        s.removeNode id = some (((s.cascade (.removeNode id)).getLastD s).dropNode n) :=
  ⟨((new "g" []).history unravelling).get ⟨8, by decide +kernel⟩, List.get_mem _ _, by decide +kernel,
    by decide +kernel, sound_of_mem_history "g" [] unravelling (List.get_mem _ _)⟩

end TriGraph.Store
