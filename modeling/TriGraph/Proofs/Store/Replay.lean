import TriGraph.Proofs.Index.Seen
import TriGraph.Proofs.Store.Upkeep

/-!
# Writing once more

The tables end with the last version of every id in the slot of the first; the buckets follow from the tables; and
every key is among those seen already. So the same writes in the same order change nothing when they are made again.
-/

namespace TriGraph.Store

/-! ## Writes -/

inductive Write where
  | node (n : Node)
  | edge (e : Edge)

namespace Write

def entity : Write → Entity
  | .node n => .node n
  | .edge e => .edge e

def node? : Write → Option Node
  | .node n => some n
  | .edge _ => none

def edge? : Write → Option Edge
  | .node _ => none
  | .edge e => some e

end Write

def put (s : Store) : Write → Store
  | .node n => s.addNode n
  | .edge e => s.putEdge e

def putAll (s : Store) (ws : List Write) : Store :=
  ws.foldl put s

inductive Fits : Store → List Write → Prop where
  | nil (s : Store) : Fits s []
  | node {s : Store} {n : Node} {ws : List Write} (h : Fits (s.addNode n) ws) : Fits s (.node n :: ws)
  | edge {s : Store} {e : Edge} {ws : List Write} (hs : s.hasNode e.source = true) (ht : s.hasNode e.target = true)
      (h : Fits (s.putEdge e) ws) : Fits s (.edge e :: ws)

def Covers (s t : Store) : Prop :=
  ∀ id, s.hasNode id = true → t.hasNode id = true

section
variable {s t : Store} {ws : List Write}

/-! ## What writes lead to -/

@[simp] theorem putEdge_nodes (e : Edge) (s : Store) : (s.putEdge e).nodes = s.nodes := by
  simp [putEdge]

@[simp] theorem putEdge_edges (e : Edge) (s : Store) : (s.putEdge e).edges = s.edges.put e.id e := by
  simp [putEdge]

theorem name_put (s : Store) (w : Write) : (s.put w).name = s.name := by
  cases w with
  | node n => cases h : s.node? n.id <;> simp [put, addNode, h, unindex, mapIndexes]
  | edge e => cases h : s.edge? e.id <;> simp [put, putEdge, h, unindex, mapIndexes]

theorem name_putAll (s : Store) (ws : List Write) : (s.putAll ws).name = s.name := by
  induction ws generalizing s with
  | nil => rfl
  | cons w ws ih => exact (ih (s.put w)).trans (name_put s w)

theorem nodes_putAll (s : Store) (ws : List Write) :
    (s.putAll ws).nodes = s.nodes.putAll Node.id (ws.filterMap Write.node?) := by
  induction ws generalizing s with
  | nil => rfl
  | cons w ws ih =>
    refine (ih (s.put w)).trans ?_
    cases w with
    | node n => simp [put, Write.node?, Table.putAll]
    | edge e => simp [put, List.filterMap_cons, Write.node?]

theorem edges_putAll (s : Store) (ws : List Write) :
    (s.putAll ws).edges = s.edges.putAll Edge.id (ws.filterMap Write.edge?) := by
  induction ws generalizing s with
  | nil => rfl
  | cons w ws ih =>
    refine (ih (s.put w)).trans ?_
    cases w with
    | node n => simp [put, List.filterMap_cons, Write.edge?]
    | edge e => simp [put, Write.edge?, Table.putAll]

theorem hasNode_putAll {id : String} :
    (s.putAll ws).hasNode id = true ↔ (∃ n, .node n ∈ ws ∧ n.id = id) ∨ s.hasNode id = true := by
  unfold hasNode
  rw [nodes_putAll, Table.Keyed.contains_putAll]
  refine or_congr_left ⟨?_, ?_⟩
  · rintro ⟨n, hn, hid⟩
    obtain ⟨w, hw, hwn⟩ := List.mem_filterMap.mp hn
    cases w with
    | node m => cases hwn; exact ⟨n, hw, hid⟩
    | edge e => cases hwn
  · rintro ⟨n, hn, hid⟩
    exact ⟨n, List.mem_filterMap.mpr ⟨.node n, hn, rfl⟩, hid⟩

theorem covers_putAll (s : Store) (ws : List Write) : s.Covers (s.putAll ws) :=
  fun _ hid => hasNode_putAll.mpr (Or.inr hid)

theorem Covers.putAll (h : s.Covers t) (ws : List Write) : (s.putAll ws).Covers (t.putAll ws) := by
  intro id hid
  exact hasNode_putAll.mpr ((hasNode_putAll.mp hid).imp_right (h id))

theorem putAll_append (s : Store) (vs ws : List Write) : s.putAll (vs ++ ws) = (s.putAll vs).putAll ws :=
  List.foldl_append ..

namespace Fits

theorem append {vs : List Write} (h : s.Fits vs) (h' : (s.putAll vs).Fits ws) : s.Fits (vs ++ ws) := by
  induction h with
  | nil s => exact h'
  | node _ ih => exact .node (ih h')
  | edge hs ht _ ih => exact .edge hs ht (ih h')

theorem mono (h : s.Fits ws) (hst : s.Covers t) : t.Fits ws := by
  induction h generalizing t with
  | nil s => exact .nil t
  | @node s n ws _ ih => exact .node (ih (hst.putAll [.node n]))
  | @edge s e ws hs ht _ ih => exact .edge (hst _ hs) (hst _ ht) (ih (hst.putAll [.edge e]))

theorem edits (h : s.Fits ws) : Edits s (s.putAll ws) := by
  induction h with
  | nil s => exact .refl
  | node _ ih => exact (Edits.single (.putNode _)).trans ih
  | edge hs ht _ ih => exact (Edits.single (.putEdge hs ht)).trans ih

end Fits

/-! ## Indexes in order -/

structure Shelved (s : Store) : Prop where
  names : Catalog.Sorted s.indexes
  seen : ∀ e ∈ s.indexes, OrderedSet.Sorted e.2.seen

theorem Shelved.map (h : s.Shelved) {f : Index → Index} (ht : t.indexes = s.indexes.map fun (n, i) => (n, f i))
    (hf : ∀ i, OrderedSet.Sorted i.seen → OrderedSet.Sorted (f i).seen) : t.Shelved := by
  refine ⟨?_, fun e he => ?_⟩
  · rw [ht]
    exact List.pairwise_map.mpr h.names
  · rw [ht] at he
    obtain ⟨d, hd, rfl⟩ := List.mem_map.mp he
    exact hf d.2 (h.seen d hd)

def replaced (s : Store) : Write → Option Entity
  | .node n => (s.node? n.id).map .node
  | .edge e => (s.edge? e.id).map .edge

theorem indexes_unindex (e : Option Entity) (s : Store) :
    (s.unindex e).indexes = s.indexes.map fun (n, i) => (n, i.without e) := by
  cases e with
  | none => exact (List.map_id' _).symm
  | some e => rfl

theorem indexes_put (s : Store) (w : Write) :
    (s.put w).indexes = s.indexes.map fun (n, i) => (n, (i.without (s.replaced w)).add w.entity) := by
  have h : (s.put w).indexes = ((s.unindex (s.replaced w)).mapIndexes (·.add w.entity)).indexes := by
    cases w <;> rfl
  rw [h, mapIndexes, indexes_unindex, List.map_map]
  rfl

theorem seen_without (e : Option Entity) (i : Index) : (i.without e).seen = i.seen := by
  cases e with
  | none => rfl
  | some e => exact Index.seen_remove i e

theorem Shelved.put (h : s.Shelved) (w : Write) : (s.put w).Shelved := by
  refine h.map (indexes_put s w) fun i hi => Index.sorted_add ?_ _
  rw [seen_without]
  exact hi

theorem Shelved.edit (h : s.Shelved) (he : Edit s t) : t.Shelved := by
  cases he with
  | putNode n => exact h.put (.node n)
  | @putEdge e _ _ => exact h.put (.edge e)
  | @dropEdge e _ =>
    refine h.map (f := (·.remove (.edge e))) rfl fun i hi => ?_
    rw [Index.seen_remove]
    exact hi
  | @dropNode n _ _ =>
    refine h.map (f := (·.remove (.node n))) rfl fun i hi => ?_
    rw [Index.seen_remove]
    exact hi
  | @addIndex new i kind paths hb =>
    refine ⟨h.names.insert _ _, fun e he => ?_⟩
    rcases Catalog.mem_of_mem_insert he with rfl | he
    · exact Index.sorted_foldl_add (i := Index.new i.kind i.target i.paths) List.Pairwise.nil _
    · exact h.seen e he

theorem Shelved.edits (h : s.Shelved) (he : Edits s t) : t.Shelved := by
  induction he with
  | refl => exact h
  | tail _ he ih => exact ih.edit he

theorem shelved_new (name : String) {indexes : List (String × Index)} (h : Fresh indexes) :
    (new name indexes).Shelved := by
  refine ⟨.ofList indexes, fun e he => ?_⟩
  obtain ⟨kind, paths, hb⟩ := h e (Catalog.mem_of_mem_ofList he)
  obtain ⟨-, hblank, -⟩ := Index.build_eq_ok hb
  rw [← hblank]
  exact List.Pairwise.nil

theorem Reachable.shelved (h : s.Reachable) : s.Shelved := by
  induction h with
  | start name hf => exact shelved_new name hf
  | step hr c ih => exact ih.edits (hr.linked.edits_step c)

/-! ## The second round -/

theorem indexes_putAll (s : Store) (ws : List Write) :
    ∃ f : Index → Index, (s.putAll ws).indexes = s.indexes.map (fun (n, i) => (n, f i)) ∧
      ∀ i, (f i).blank = i.blank ∧
        (f i).seen = OrderedSet.insertAll (ws.flatMap fun w => i.noted w.entity) i.seen := by
  induction ws generalizing s with
  | nil => exact ⟨id, (List.map_id' _).symm, fun i => ⟨rfl, rfl⟩⟩
  | cons w ws ih =>
    obtain ⟨f, hf, hi⟩ := ih (s.put w)
    have hb : ∀ i : Index, ((i.without (s.replaced w)).add w.entity).blank = i.blank := fun i => by
      rw [Index.blank_add, Index.blank_without]
    refine ⟨fun i => f ((i.without (s.replaced w)).add w.entity), ?_, fun i => ⟨?_, ?_⟩⟩
    · refine hf.trans ?_
      rw [indexes_put, List.map_map]
      rfl
    · rw [(hi _).1, hb]
    · rw [(hi _).2, Index.noted_of_blank_eq (hb i), Index.seen_add, seen_without,
        Index.noted_of_blank_eq (Index.blank_without _ i), List.flatMap_cons]
      exact (List.foldl_append ..).symm

theorem contains_congr (hn : s.nodes = t.nodes) (he : s.edges = t.edges) : s.Contains = t.Contains := by
  funext d
  cases d with
  | node n => simp [Contains, allNodes, hn]
  | edge e => simp [Contains, allEdges, he]

theorem ext_of_parts (hname : s.name = t.name) (hn : s.nodes = t.nodes) (he : s.edges = t.edges)
    (hi : s.indexes = t.indexes) : s = t := by
  cases s
  cases t
  simp only at hname hn he hi
  rw [hname, hn, he, hi]

theorem indexes_putAll_again (h : s.Reachable) (hf : s.Fits ws) :
    ((s.putAll ws).putAll ws).indexes = (s.putAll ws).indexes := by
  have hf' : (s.putAll ws).Fits ws := hf.mono (covers_putAll s ws)
  have hl : (s.putAll ws).Linked := h.linked.edits hf.edits
  have hc : (s.putAll ws).Current := h.current.edits h.linked hf.edits
  have hc' : ((s.putAll ws).putAll ws).Current := hc.edits hl hf'.edits
  have hs : (s.putAll ws).Shelved := h.shelved.edits hf.edits
  have hs' : ((s.putAll ws).putAll ws).Shelved := hs.edits hf'.edits
  have hsame : ((s.putAll ws).putAll ws).Contains = (s.putAll ws).Contains := by
    refine contains_congr ?_ ?_
    · rw [nodes_putAll, nodes_putAll, h.linked.nodes.putAll_again]
    · rw [edges_putAll, edges_putAll, h.linked.edges.putAll_again]
  obtain ⟨f, hmap, hfirst⟩ := indexes_putAll s ws
  obtain ⟨g, hmap', hsecond⟩ := indexes_putAll (s.putAll ws) ws
  rw [hmap']
  refine (List.map_congr_left fun e he => ?_).trans (List.map_id' _)
  obtain ⟨n, i⟩ := e
  have hgi : (n, g i) ∈ ((s.putAll ws).putAll ws).indexes := hmap' ▸ List.mem_map.mpr ⟨(n, i), he, rfl⟩
  have hrec := (hc n i (hs.names.get?_of_mem he)).records
  have hrec' := (hc' n (g i) (hs'.names.get?_of_mem hgi)).records
  rw [hsame] at hrec'
  refine congrArg (Prod.mk n) (Index.ext_of_blank (hsecond i).1 (hrec'.ext hrec (hsecond i).1) ?_)
  -- the index had seen all keys after the first round
  rw [hmap] at he
  obtain ⟨⟨m, j⟩, hj, hij⟩ := List.mem_map.mp he
  cases hij
  rw [(hsecond (f j)).2, Index.noted_of_blank_eq (hfirst j).1, (hfirst j).2]
  exact (h.shelved.seen _ hj).insertAll_again _

theorem putAll_again (h : s.Reachable) (hf : s.Fits ws) : (s.putAll ws).putAll ws = s.putAll ws := by
  refine ext_of_parts (name_putAll _ _) ?_ ?_ (indexes_putAll_again h hf)
  · rw [nodes_putAll, nodes_putAll, h.linked.nodes.putAll_again]
  · rw [edges_putAll, edges_putAll, h.linked.edges.putAll_again]

end

end TriGraph.Store
