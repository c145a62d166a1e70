import TriGraph.Entity.Document
import TriGraph.Proofs.Document.Fields
import TriGraph.Proofs.Store.Changes
import TriGraph.Proofs.Value.Document

/-!
# Nodes and edges read back from their records

A store whose commands bring ordered bags and values holds ordered bags only, and then a record is read back as the
entity that it was written from, or not at all.
-/

namespace TriGraph

open Document (fields?_object)

theorem Node.ofDocument?_toDocument {n : Node} (h : n.properties.Ordered) :
    ofDocument? n.toDocument = if n.properties.isFinite then some n else none := by
  have hfields : n.toDocument.fields? fieldNames =
      some [some (.text n.id), some (.text n.type), some n.properties.toDocument] :=
    fields?_object rfl (by decide)
  simp only [ofDocument?, hfields, Document.required, Document.withDefault, Document.text?, Option.bind_some,
    bind, Properties.ofDocument?_toDocument h]
  by_cases hf : n.properties.isFinite = true <;> simp [hf]

theorem Edge.ofDocument?_toDocument {e : Edge} (h : e.properties.Ordered) :
    ofDocument? e.toDocument = if e.properties.isFinite then some e else none := by
  have hfields : e.toDocument.fields? fieldNames = some [some (.text e.id), some (.text e.source),
      some (.text e.target), some (.text e.type), some e.properties.toDocument] :=
    fields?_object rfl (by decide)
  simp only [ofDocument?, hfields, Document.required, Document.withDefault, Document.text?, Option.bind_some,
    bind, Properties.ofDocument?_toDocument h]
  by_cases hf : e.properties.isFinite = true <;> simp [hf]

namespace Store

theorem ordered_run (name : String) (indexes : List (String × Index)) {cs : List Command}
    (hcs : ∀ c ∈ cs, c.Bears Properties.Ordered Value.Ordered) :
    ∀ d, ((new name indexes).run cs).Contains d → d.properties.Ordered := by
  refine bags_run Properties.ordered_nil (fun ps name v hps hv => hps.insert name hv) (linked_new name indexes) ?_ hcs
  intro d hd
  cases d <;> exact nomatch hd

/-- A value is read back as it was if all floats in it are finite, and not read at all otherwise; so are the records
of a store. -/
theorem records_read_back :
    (∀ v : Value, v.Ordered → Value.ofDocument? v.toDocument = if v.isFinite then some v else none) ∧
    ∀ (name : String) (indexes : List (String × Index)) (cs : List Command),
      (∀ c ∈ cs, c.Bears Properties.Ordered Value.Ordered) →
      (∀ n ∈ ((new name indexes).run cs).allNodes,
        Node.ofDocument? n.toDocument = if n.properties.isFinite then some n else none) ∧
      ∀ e ∈ ((new name indexes).run cs).allEdges,
        Edge.ofDocument? e.toDocument = if e.properties.isFinite then some e else none := by
  refine ⟨Value.ofDocument?_toDocument, fun name indexes cs hcs => ?_⟩
  have hordered := ordered_run name indexes hcs
  constructor
  · exact fun n hn => Node.ofDocument?_toDocument (hordered (.node n) hn)
  · exact fun e he => Edge.ofDocument?_toDocument (hordered (.edge e) he)

def manifold : Value :=
  .object [("a", .list [.int 1, .float 1.0, .text "1", .bool true, .list [], .object []]),
    ("b", .object [("c", .float (-0.0)), ("d", .int (-9223372036854775808))])]

def shattered : Value :=
  .list [.int 1, .float (0.0 / 0.0)]

def museum : List Command :=
  [.addNode { id := "x", type := "Vase", properties := [("shape", manifold)] },
    .addNode { id := "y", type := "Vase" }, .setNodeProperty "y" "shape" shattered,
    .addEdge { id := "e", source := "x", target := "y", type := "BESIDE", properties := [("weight", .float 2.0)] },
    .addEdge { id := "f", source := "y", target := "x", type := "BESIDE" },
    .setEdgeProperty "f" "weight" (.float (1.0 / 0.0))]

theorem ordered_manifold : manifold.Ordered := by
  have ha : (Value.list [.int 1, .float 1.0, .text "1", .bool true, .list [], .object []]).Ordered := by
    refine .list ?_
    simp only [List.forall_mem_cons]
    exact ⟨.int 1, .float 1.0, .text "1", .bool true, .list (List.forall_mem_nil _), Properties.ordered_nil,
      List.forall_mem_nil _⟩
  have hb : (Value.object [("c", .float (-0.0)), ("d", .int (-9223372036854775808))]).Ordered := by
    refine .object (by decide) ?_
    simp only [List.forall_mem_cons]
    exact ⟨.float _, .int _, List.forall_mem_nil _⟩
  refine .object (by decide) ?_
  simp only [List.forall_mem_cons]
  exact ⟨ha, hb, List.forall_mem_nil _⟩

theorem bears_museum : ∀ c ∈ museum, c.Bears Properties.Ordered Value.Ordered := by
  have hone : ∀ {name : String} {v : Value}, v.Ordered → Properties.Ordered [(name, v)] := fun hv =>
    Properties.ordered_nil.insert _ hv
  have hshattered : shattered.Ordered := by
    refine .list ?_
    simp only [List.forall_mem_cons]
    exact ⟨.int 1, .float _, List.forall_mem_nil _⟩
  simp only [museum, List.forall_mem_cons]
  exact ⟨hone ordered_manifold, Properties.ordered_nil, hshattered, hone (.float _), Properties.ordered_nil, .float _,
    List.forall_mem_nil _⟩

theorem records_read_back_museum :
    manifold.Ordered ∧ Value.ofDocument? manifold.toDocument = some manifold ∧
      (∀ c ∈ museum, c.Bears Properties.Ordered Value.Ordered) ∧
      (∀ n ∈ ((new "museum" []).run museum).allNodes,
        Node.ofDocument? n.toDocument = if n.id = "x" then some n else none) ∧
      ∀ e ∈ ((new "museum" []).run museum).allEdges,
        Edge.ofDocument? e.toDocument = if e.id = "e" then some e else none := by
  obtain ⟨hvalues, hstores⟩ := records_read_back
  obtain ⟨hnodes, hedges⟩ := hstores "museum" [] museum bears_museum
  have hv : manifold.isFinite = true := by decide +kernel
  have hn : ∀ n ∈ ((new "museum" []).run museum).allNodes, n.properties.isFinite = decide (n.id = "x") := by
    decide +kernel
  have he : ∀ e ∈ ((new "museum" []).run museum).allEdges, e.properties.isFinite = decide (e.id = "e") := by
    decide +kernel
  refine ⟨ordered_manifold, ?_, bears_museum, fun n hm => ?_, fun e hm => ?_⟩
  · rw [hvalues manifold ordered_manifold, if_pos hv]
  · simpa [hn n hm] using hnodes n hm
  · simpa [he e hm] using hedges e hm

end Store

end TriGraph
