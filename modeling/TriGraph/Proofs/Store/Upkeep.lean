import TriGraph.Proofs.Index.Upkeep
import TriGraph.Proofs.Store.Integrity

/-!
# Upkeep of the indexes of a store

An edit first takes the namesake of what it puts out of every index, and removal goes by id, so nothing of an old
version stays behind. So an index agrees at every moment with one that is built anew from the store.
-/

namespace TriGraph

/-! ## One index -/

namespace Index

def without (e : Option Entity) (i : Index) : Index :=
  match e with
  | some e => i.remove e
  | none => i

theorem blank_without (e : Option Entity) (i : Index) : (i.without e).blank = i.blank := by
  cases e with
  | none => rfl
  | some e => exact blank_remove i e

theorem Records.put {i : Index} {S : Entity → Prop} (h : i.Records S) {old : Option Entity} {e : Entity}
    (ho : ∀ d, S d → d.kind = e.kind ∧ d.id = e.id → old = some d)
    (hs : ∀ d, old = some d → d.kind = e.kind ∧ d.id = e.id) :
    ((i.without old).add e).Records fun d => d = e ∨ (S d ∧ ¬(d.kind = e.kind ∧ d.id = e.id)) := by
  cases old with
  | none =>
    refine (h.add e).congr fun d _ => or_congr_right ?_
    constructor
    · intro hd
      exact ⟨hd, fun hde => nomatch ho d hd hde⟩
    · intro hd
      exact hd.1
  | some o =>
    obtain ⟨hk, hid⟩ := hs o rfl
    refine ((h.remove o).add e).congr fun d _ => ?_
    rw [hk, hid]

end Index

namespace Store

/-! ## What a store contains -/

def Contains (s : Store) : Entity → Prop
  | .node n => n ∈ s.allNodes
  | .edge e => e ∈ s.allEdges

theorem contains_iff_mem_entities {s : Store} {d : Entity} :
    s.Contains d ↔ d ∈ s.entities .nodes ++ s.entities .edges := by
  cases d with
  | node n => simp [Contains, entities]
  | edge e => simp [Contains, entities]

theorem contains_iff_mem_entities_kind {s : Store} {d : Entity} {k : EntityKind} (hk : d.kind = k) :
    s.Contains d ↔ d ∈ s.entities k := by
  subst hk
  cases d with
  | node n => simp [Contains, entities, Entity.kind]
  | edge e => simp [Contains, entities, Entity.kind]

section
variable {s : Store} (h : s.Linked)
include h

theorem contains_addNode (n : Node) (d : Entity) :
    (s.addNode n).Contains d ↔ d = .node n ∨ (s.Contains d ∧ ¬(d.kind = .nodes ∧ d.id = n.id)) := by
  cases d with
  | node m =>
    have hn : (s.addNode n).allNodes = (s.nodes.put n.id n).values := congrArg Table.values (addNode_nodes s n)
    unfold Contains
    rw [hn]
    refine h.nodes.mem_values_put.trans ?_
    simp [allNodes, Entity.kind, Entity.id]
  | edge e =>
    unfold Contains allEdges
    rw [addNode_edges]
    simp [Entity.kind]

theorem contains_putEdge (e : Edge) (d : Entity) :
    (s.putEdge e).Contains d ↔ d = .edge e ∨ (s.Contains d ∧ ¬(d.kind = .edges ∧ d.id = e.id)) := by
  cases d with
  | node m =>
    have hn : (s.putEdge e).nodes = s.nodes := by simp [putEdge]
    unfold Contains allNodes
    rw [hn]
    simp [Entity.kind]
  | edge f =>
    refine h.mem_allEdges_putEdge.trans ?_
    simp [Contains, Entity.kind, Entity.id]

theorem contains_dropEdge (e : Edge) (d : Entity) :
    (s.dropEdge e).Contains d ↔ s.Contains d ∧ ¬(d.kind = .edges ∧ d.id = e.id) := by
  cases d with
  | node m =>
    have hn : (s.dropEdge e).allNodes = s.allNodes := rfl
    simp [Contains, hn, Entity.kind]
  | edge f =>
    refine h.edges.mem_values_remove.trans ?_
    simp [Contains, allEdges, Entity.kind, Entity.id]

theorem contains_dropNode (n : Node) (d : Entity) :
    (s.dropNode n).Contains d ↔ s.Contains d ∧ ¬(d.kind = .nodes ∧ d.id = n.id) := by
  cases d with
  | node m =>
    refine h.nodes.mem_values_remove.trans ?_
    simp [Contains, allNodes, Entity.kind, Entity.id]
  | edge f =>
    have he : (s.dropNode n).allEdges = s.allEdges := rfl
    simp [Contains, he, Entity.kind]

end

/-! ## Indexes after an edit -/

theorem index?_mapIndexes (f : Index → Index) (name : String) (s : Store) :
    (s.mapIndexes f).index? name = (s.index? name).map f :=
  Catalog.get?_map f name s.indexes

theorem index?_unindex (e : Option Entity) (name : String) (s : Store) :
    (s.unindex e).index? name = (s.index? name).map (·.without e) := by
  cases e with
  | none => exact (Option.map_id' ..).symm
  | some e => exact index?_mapIndexes _ name s

theorem index?_addNode (n : Node) (name : String) (s : Store) :
    (s.addNode n).index? name =
      (s.index? name).map fun i => (i.without ((s.node? n.id).map .node)).add (.node n) := by
  refine (index?_mapIndexes (·.add (.node n)) name (s.unindex _)).trans ?_
  rw [index?_unindex, Option.map_map]
  rfl

theorem index?_putEdge (e : Edge) (name : String) (s : Store) :
    (s.putEdge e).index? name =
      (s.index? name).map fun i => (i.without ((s.edge? e.id).map .edge)).add (.edge e) := by
  refine (index?_mapIndexes (·.add (.edge e)) name (s.unindex _)).trans ?_
  rw [index?_unindex, Option.map_map]
  rfl

/-! ## The invariant -/

structure Attached (s : Store) (i : Index) : Prop where
  records : i.Records s.Contains
  built : Index.build i.kind (i.paths.map Index.Path.text) = .ok i.blank

def Current (s : Store) : Prop :=
  ∀ name i, s.index? name = some i → s.Attached i

theorem Attached.of_records {s t : Store} {i j : Index} (h : s.Attached i) (hj : j.Records t.Contains)
    (hb : j.blank = i.blank) : t.Attached j := by
  refine ⟨hj, ?_⟩
  obtain ⟨hk, -, hp⟩ := Index.eq_of_blank_eq hb
  rw [hk, hp, hb]
  exact h.built

theorem Current.map {s t : Store} (h : s.Current) {f : Index → Index}
    (ht : ∀ name, t.index? name = (s.index? name).map f) (hb : ∀ i, (f i).blank = i.blank)
    (hf : ∀ i, i.Records s.Contains → (f i).Records t.Contains) : t.Current := by
  intro name j hj
  rw [ht, Option.map_eq_some_iff] at hj
  obtain ⟨i, hi, rfl⟩ := hj
  have ha := h name i hi
  exact ha.of_records (hf i ha.records) (hb i)

theorem Current.edit {s t : Store} (h : s.Current) (hl : s.Linked) (he : Edit s t) : t.Current := by
  cases he with
  | putNode n =>
    refine h.map (index?_addNode n · s) (fun i => ?_) fun i hi => ?_
    · rw [Index.blank_add, Index.blank_without]
    refine (hi.put (fun d hd hdn => ?_) fun d hd => ?_).congr fun d _ => (contains_addNode hl n d).symm
    · cases d with
      | node m =>
        have hm : s.node? n.id = some m := hl.nodes.get?_eq_some.mpr ⟨hd, hdn.2⟩
        rw [hm]
        rfl
      | edge _ => cases hdn.1
    · obtain ⟨m, hm, rfl⟩ := Option.map_eq_some_iff.mp hd
      exact ⟨rfl, (hl.nodes.get?_eq_some.mp hm).2⟩
  | @putEdge e _ _ =>
    refine h.map (index?_putEdge e · s) (fun i => ?_) fun i hi => ?_
    · rw [Index.blank_add, Index.blank_without]
    refine (hi.put (fun d hd hde => ?_) fun d hd => ?_).congr fun d _ => (contains_putEdge hl e d).symm
    · cases d with
      | node _ => cases hde.1
      | edge f =>
        have hf : s.edge? e.id = some f := hl.edges.get?_eq_some.mpr ⟨hd, hde.2⟩
        rw [hf]
        rfl
    · obtain ⟨f, hf, rfl⟩ := Option.map_eq_some_iff.mp hd
      exact ⟨rfl, (hl.edges.get?_eq_some.mp hf).2⟩
  | @dropEdge e _ =>
    refine h.map (f := (·.remove (.edge e))) (fun name => index?_mapIndexes _ name _) (Index.blank_remove · _) fun i hi => ?_
    exact (hi.remove (.edge e)).congr fun d _ => (contains_dropEdge hl e d).symm
  | @dropNode n _ _ =>
    refine h.map (f := (·.remove (.node n))) (fun name => index?_mapIndexes _ name _) (Index.blank_remove · _) fun i hi => ?_
    exact (hi.remove (.node n)).congr fun d _ => (contains_dropNode hl n d).symm
  | @addIndex new i kind paths hb =>
    obtain ⟨hbuilt, hblank, -⟩ := Index.build_eq_ok hb
    intro name j hj
    by_cases hn : name = new
    · rw [index?, hn, Catalog.get?_insert_self] at hj
      cases hj
      have hsame : (i.rebuilt (s.entities i.target)).blank = i.blank := Index.blank_foldl_add _ _
      obtain ⟨hk, ht, hp⟩ := Index.eq_of_blank_eq hsame
      refine ⟨?_, ?_⟩
      · refine ((Index.Records.blank i).foldl_add (s.entities i.target)).congr fun d hd => ?_
        rw [or_iff_left id]
        exact (contains_iff_mem_entities_kind (hd.trans ht)).symm
      · rw [hk, hp, hsame, hblank]
        exact hbuilt
    · rw [index?, Catalog.get?_insert_ne hn] at hj
      have ha := h name j hj
      exact ⟨ha.records, ha.built⟩

theorem Current.edits {s t : Store} (h : s.Current) (hl : s.Linked) (he : Edits s t) : t.Current := by
  induction he with
  | refl => exact h
  | tail hst he ih => exact ih.edit (hl.edits hst) he

theorem current_new (name : String) {indexes : List (String × Index)} (h : Fresh indexes) :
    (new name indexes).Current := by
  intro n i hi
  obtain ⟨kind, paths, hb⟩ := h _ (Catalog.mem_of_mem_ofList (Catalog.mem_of_get? hi))
  have hb : Index.build kind paths = .ok i := hb
  obtain ⟨hbuilt, hblank, -⟩ := Index.build_eq_ok hb
  refine ⟨?_, hblank.symm ▸ hbuilt⟩
  rw [← hblank]
  refine (Index.Records.blank i).congr fun d _ => ?_
  cases d with
  | node n => exact (List.mem_nil_iff n).symm
  | edge e => exact (List.mem_nil_iff e).symm

theorem Reachable.current {s : Store} (h : s.Reachable) : s.Current := by
  induction h with
  | start name hf => exact current_new name hf
  | step hr c ih => exact ih.edits hr.linked (hr.linked.edits_step c)

/-! ## Building anew -/

def rebuild (i : Index) (s : Store) : Except Index.Error Index := do
  let fresh ← Index.build i.kind (i.paths.map Index.Path.text)
  return (s.entities .nodes ++ s.entities .edges).foldl Index.add fresh

theorem Attached.snapshot_eq {s : Store} {i : Index} (h : s.Attached i) :
    (s.rebuild i).map Index.snapshot = .ok i.snapshot := by
  let all := s.entities .nodes ++ s.entities .edges
  have hr : s.rebuild i = .ok (all.foldl Index.add i.blank) := by
    unfold rebuild
    rw [h.built]
    rfl
  have hall : (all.foldl Index.add i.blank).Records s.Contains := by
    refine ((Index.Records.blank i).foldl_add all).congr fun d _ => ?_
    rw [or_iff_left id]
    exact contains_iff_mem_entities.symm
  have hblank : (all.foldl Index.add i.blank).blank = i.blank := Index.blank_foldl_add all i.blank
  have hb : (all.foldl Index.add i.blank).buckets = i.buckets := hall.ext h.records hblank
  obtain ⟨-, ht, -⟩ := Index.eq_of_blank_eq hblank
  rw [hr]
  unfold Except.map Index.snapshot
  simp only [ht, hb]

/-- An attached index keeps at every moment what one keeps that is built anew. -/
theorem snapshot_eq_rebuilt (name : String) {indexes : List (String × Index)} (hf : Fresh indexes)
    (cs : List Command) {n : String} {i : Index} (hi : ((new name indexes).run cs).index? n = some i) :
    (((new name indexes).run cs).rebuild i).map Index.snapshot = .ok i.snapshot :=
  (((Reachable.start name hf).run cs).current n i hi).snapshot_eq

def turnover : List Command :=
  [.addNode { id := "a", type := "T", properties := [("p", .int 1), ("q", .int 1)] },
    .addNode { id := "b", type := "T", properties := [("q", .int 2)] },
    .createIndex "either" .hash ["node.properties.p", "node.properties.q"],
    .addEdge { id := "x", source := "a", target := "b", type := "R" },
    .addEdge { id := "y", source := "b", target := "b", type := "R" },
    .setNodeProperty "b" "p" (.int 1),
    .removeNode "a"]

theorem snapshot_turnover :
    ∃ i, ((new "g" [("kind", Index.new .ordered .edges [.edgeType])]).run turnover).index? "either" = some i ∧
      i.buckets = [(.int 1, ["b"]), (.int 2, ["b"])] ∧
      (((new "g" [("kind", Index.new .ordered .edges [.edgeType])]).run turnover).rebuild i).map Index.snapshot =
        .ok i.snapshot := by
  have hf : Fresh [("kind", Index.new .ordered .edges [.edgeType])] := by
    intro e he
    rw [List.mem_singleton.mp he]
    exact ⟨.ordered, ["edge.type"], rfl⟩
  exact ⟨_, rfl, by decide +kernel, snapshot_eq_rebuilt "g" hf turnover (n := "either") rfl⟩

end Store

end TriGraph
