import TriGraph.Proofs.Table
import TriGraph.Store

/-!
# Histories of a store

The removal of a node goes through the removal of its edges one by one, and the stores in between belong to the
history too. Every store of a history is reached by edits.
-/

namespace TriGraph.Store

/-! ## Commands -/

inductive Command where
  | addNode (n : Node)
  | addEdge (e : Edge)
  | removeNode (id : String)
  | removeEdge (id : String)
  | setNodeProperty (id name : String) (v : Value)
  | setEdgeProperty (id name : String) (v : Value)
  | identity (id : String)
  | createIndex (name : String) (kind : Index.Kind) (paths : List String)

/-- A command that is refused leaves the store as it was. -/
def step (s : Store) : Command → Store
  | .addNode n => s.addNode n
  | .addEdge e => (s.addEdge e).toOption.getD s
  | .removeNode id => (s.removeNode id).getD s
  | .removeEdge id => (s.removeEdge id).getD s
  | .setNodeProperty id name v => (s.setNodeProperty id name v).getD s
  | .setEdgeProperty id name v => (s.setEdgeProperty id name v).getD s
  | .identity id => ((s.identity id).map (·.2)).getD s
  | .createIndex name kind paths => (s.createIndex name kind paths).toOption.getD s

def run (s : Store) (cs : List Command) : Store :=
  cs.foldl step s

def removals : List String → Store → List Store
  | [], _ => []
  | id :: ids, s => (s.removeEdge id).getD s :: removals ids ((s.removeEdge id).getD s)

def incident (id : String) (s : Store) : List String :=
  (s.allEdges.filter (·.touches id)).map (·.id)

/-- The stores between the two ends of a command. -/
def cascade (s : Store) : Command → List Store
  | .removeNode id => if s.hasNode id then removals (s.incident id) s else []
  | _ => []

def history (s : Store) : List Command → List Store
  | [] => [s]
  | c :: cs => s :: (s.cascade c ++ (s.step c).history cs)

def Fresh (indexes : List (String × Index)) : Prop :=
  ∀ e ∈ indexes, ∃ kind paths, Index.build kind paths = .ok e.2

theorem fresh_nil : Fresh [] := by
  intro e he
  cases he

inductive Reachable : Store → Prop where
  | start (name : String) {indexes : List (String × Index)} (h : Fresh indexes) : Reachable (new name indexes)
  | step {s : Store} (h : Reachable s) (c : Command) : Reachable (s.step c)

theorem Reachable.run {s : Store} (h : Reachable s) (cs : List Command) : Reachable (s.run cs) := by
  induction cs generalizing s with
  | nil => exact h
  | cons c cs ih => exact ih (h.step c)

/-! ## What a write leaves alone -/

section
variable (s : Store)

@[simp] theorem mapIndexes_nodes (f : Index → Index) : (s.mapIndexes f).nodes = s.nodes := rfl

@[simp] theorem mapIndexes_edges (f : Index → Index) : (s.mapIndexes f).edges = s.edges := rfl

@[simp] theorem unindex_nodes (e : Option Entity) : (s.unindex e).nodes = s.nodes := by
  cases e <;> rfl

@[simp] theorem unindex_edges (e : Option Entity) : (s.unindex e).edges = s.edges := by
  cases e <;> rfl

@[simp] theorem addNode_nodes (n : Node) : (s.addNode n).nodes = s.nodes.put n.id n := by
  simp [addNode]

@[simp] theorem addNode_edges (n : Node) : (s.addNode n).edges = s.edges := by
  simp [addNode]

end

/-! ## Edits -/

def putEdge (e : Edge) (s : Store) : Store :=
  let s := s.unindex ((s.edge? e.id).map .edge)
  let s := s.mapIndexes (·.add (.edge e))
  { s with edges := s.edges.put e.id e }

def dropEdge (e : Edge) (s : Store) : Store :=
  { s with edges := s.edges.remove e.id }.mapIndexes (·.remove (.edge e))

def dropNode (n : Node) (s : Store) : Store :=
  { s with nodes := s.nodes.remove n.id }.mapIndexes (·.remove (.node n))

inductive Edit (s : Store) : Store → Prop where
  | putNode (n : Node) : Edit s (s.addNode n)
  | putEdge {e : Edge} (hs : s.hasNode e.source = true) (ht : s.hasNode e.target = true) : Edit s (s.putEdge e)
  | dropEdge {e : Edge} (h : e ∈ s.allEdges) : Edit s (s.dropEdge e)
  | dropNode {n : Node} (h : n ∈ s.allNodes) (hf : ∀ e ∈ s.allEdges, e.touches n.id = false) : Edit s (s.dropNode n)
  | addIndex {name : String} {i : Index} {kind : Index.Kind} {paths : List String}
      (h : Index.build kind paths = .ok i) :
      Edit s { s with indexes := Catalog.insert name (i.rebuilt (s.entities i.target)) s.indexes }

inductive Edits (s : Store) : Store → Prop where
  | refl : Edits s s
  | tail {t u : Store} (h : Edits s t) (he : Edit t u) : Edits s u

theorem Edits.single {s t : Store} (h : Edit s t) : Edits s t :=
  .tail .refl h

theorem Edits.trans {s t u : Store} (h : Edits s t) (h' : Edits t u) : Edits s u := by
  induction h' with
  | refl => exact h
  | tail _ he ih => exact ih.tail he

theorem addEdge_eq_ok {s t : Store} {e : Edge} (h : s.addEdge e = .ok t) :
    s.hasNode e.source = true ∧ s.hasNode e.target = true ∧ t = s.putEdge e := by
  unfold addEdge at h
  split at h
  · cases h
  rename_i hs
  split at h
  · cases h
  rename_i ht
  cases h
  exact ⟨by simpa using hs, by simpa using ht, rfl⟩

theorem hasNode_putEdge (s : Store) (e : Edge) (id : String) : (s.putEdge e).hasNode id = s.hasNode id := by
  simp [hasNode, putEdge]

theorem addEdge_of_present {s : Store} {e : Edge} (hs : s.hasNode e.source = true) (ht : s.hasNode e.target = true) :
    s.addEdge e = .ok (s.putEdge e) := by
  simp only [addEdge, hs, ht]
  rfl

theorem edits_addEdge (s : Store) (e : Edge) : Edits s ((s.addEdge e).toOption.getD s) := by
  cases h : s.addEdge e with
  | error _ => exact .refl
  | ok t =>
    obtain ⟨hs, ht, rfl⟩ := addEdge_eq_ok h
    exact .single (.putEdge hs ht)

theorem edits_identity (s : Store) (id : String) : Edits s (((s.identity id).map (·.2)).getD s) := by
  unfold identity
  cases s.node? id with
  | none => exact .refl
  | some n =>
    simp only [bind, Option.bind]
    split
    · rename_i e _
      cases s.edge? e.id with
      | none => exact .refl
      | some _ => exact .refl
    · have := edits_addEdge s { id := "identity_" ++ id, source := id, target := id, type := identityType n.type }
      split
      · rename_i t ht
        rw [ht] at this
        exact this
      · exact .refl

theorem createIndex_eq_ok {s t : Store} {name : String} {kind : Index.Kind} {paths : List String}
    (h : s.createIndex name kind paths = .ok t) : Catalog.contains name s.indexes = false ∧
      ∃ i, Index.build kind paths = .ok i ∧
        t = { s with indexes := Catalog.insert name (i.rebuilt (s.entities i.target)) s.indexes } := by
  unfold createIndex at h
  split at h
  · cases h
  rename_i hnew
  split at h
  · cases h
  · rename_i i hi
    cases h
    exact ⟨by simpa using hnew, i, hi, rfl⟩

theorem edits_createIndex (s : Store) (name : String) (kind : Index.Kind) (paths : List String) :
    Edits s ((s.createIndex name kind paths).toOption.getD s) := by
  cases h : s.createIndex name kind paths with
  | error _ => exact .refl
  | ok t =>
    obtain ⟨-, i, hi, rfl⟩ := createIndex_eq_ok h
    exact .single (.addIndex hi)

end TriGraph.Store
