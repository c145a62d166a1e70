import TriGraph.InPlace
import TriGraph.Proofs.Index.Upkeep
import TriGraph.Proofs.Layer.Links

/-!
# Writes to a store in place

Every write in place comes to the same as the write that returns a new store or refuses: it reports a failure just
when that one refuses, and then it leaves the store as it was.
-/

namespace TriGraph

/-! ## One step after the other -/

theorem run_get_bind {σ α : Type} (s : σ) (f : σ → StateM σ α) : (get >>= f).run s = (f s).run s := rfl

theorem run_bind_of_run {σ α β : Type} {s t : σ} {x : α} {w : StateM σ α} (h : w.run s = (x, t))
    (f : α → StateM σ β) : (w >>= f).run s = (f x).run t := by
  rw [StateT.run_bind, h]
  rfl

theorem run_discard {σ α : Type} {s t : σ} {x : α} {w : StateM σ α} (h : w.run s = (x, t)) :
    (discard w).run s = ((), t) :=
  run_bind_of_run h fun _ => pure ()

namespace Store

namespace InPlace

variable (s : Store)

/-! ## Entities -/

theorem run_addNode (n : Node) : (addNode n).run s = ((), s.addNode n) := by
  unfold addNode Store.addNode
  rw [run_get_bind]
  cases s.node? n.id with
  | none => rfl
  | some former => rfl

theorem run_addEdge (e : Edge) :
    (addEdge e).run s = ((s.addEdge e).map fun _ => e, (s.addEdge e).toOption.getD s) := by
  unfold addEdge Store.addEdge
  rw [run_get_bind, List.find?_cons, List.find?_cons, List.find?_nil]
  cases s.hasNode e.source with
  | false => rfl
  | true =>
    cases s.hasNode e.target with
    | false => rfl
    | true =>
      cases s.edge? e.id with
      | none => rfl
      | some former => rfl

theorem run_removeEdge (id : String) :
    (removeEdge id).run s = ((s.removeEdge id).isSome, (s.removeEdge id).getD s) := by
  unfold removeEdge Store.removeEdge
  rw [run_get_bind]
  cases s.edge? id with
  | none => rfl
  | some e => rfl

theorem run_removeEdges (ids : List String) :
    (ids.forM fun id => discard (removeEdge id)).run s = ((), removeEdges ids s) := by
  induction ids generalizing s with
  | nil => rfl
  | cons id ids ih => exact (run_bind_of_run (run_discard (run_removeEdge s id)) _).trans (ih _)

/-- A node that is known is there, so the removal does not fail once the edges are gone. -/
theorem run_removeNode (hs : s.Linked) (id : String) :
    (removeNode id).run s = ((s.removeNode id).isSome, (s.removeNode id).getD s) := by
  unfold removeNode Store.removeNode
  rw [run_get_bind]
  cases hn : s.node? id with
  | none =>
    have hhas : s.hasNode id = false := by
      rw [Bool.eq_false_iff]
      intro h
      obtain ⟨n, hm, rfl⟩ := hs.hasNode_iff.mp h
      exact absurd (hn.symm.trans (hs.nodes.get?_of_mem hm)) (Option.some_ne_none n).symm
    rw [hhas]
    rfl
  | some n =>
    have hhas : s.hasNode id = true := Table.contains_of_get? hn
    have hkept : (removeEdges ((s.allEdges.filter (·.touches id)).map (·.id)) s).node? id = some n := by
      unfold node?
      rw [Linked.nodes_removeEdges]
      exact hn
    rw [if_pos hhas, run_bind_of_run (run_removeEdges s _), run_get_bind, hkept]
    rfl

theorem run_setNodeProperty (hs : s.Linked) (id name : String) (v : Value) : (setNodeProperty id name v).run s =
    ((s.setNodeProperty id name v).isSome, (s.setNodeProperty id name v).getD s) := by
  unfold setNodeProperty Store.setNodeProperty
  rw [run_get_bind]
  cases h : s.node? id with
  | none => rfl
  | some n =>
    have hput := hs.nodes.update_eq_put h (·.setProperty name v)
    exact congrArg (fun nodes => (true, { s.mapIndexes (·.remove (.node n)) with nodes }.mapIndexes
      (·.add (.node (n.setProperty name v))))) hput

theorem run_setEdgeProperty (hs : s.Linked) (id name : String) (v : Value) : (setEdgeProperty id name v).run s =
    ((s.setEdgeProperty id name v).isSome, (s.setEdgeProperty id name v).getD s) := by
  unfold setEdgeProperty Store.setEdgeProperty
  rw [run_get_bind]
  cases h : s.edge? id with
  | none => rfl
  | some e =>
    have hput := hs.edges.update_eq_put h (·.setProperty name v)
    exact congrArg (fun edges => (true, { s.mapIndexes (·.remove (.edge e)) with edges }.mapIndexes
      (·.add (.edge (e.setProperty name v))))) hput

theorem run_link (e : Edge) :
    (link e).run s = ((s.addEdge e).toOption.map fun _ => e, (s.addEdge e).toOption.getD s) := by
  unfold link
  rw [run_bind_of_run (run_addEdge s e)]
  cases s.addEdge e with
  | error err => rfl
  | ok t => rfl

theorem run_identity (id : String) :
    (identity id).run s = ((s.identity id).map (·.1), ((s.identity id).map (·.2)).getD s) := by
  unfold identity Store.identity
  rw [run_get_bind]
  cases s.node? id with
  | none => rfl
  | some n =>
    dsimp only [Option.bind_eq_bind, Option.bind_some]
    cases s.allEdges.find? fun e => e.isLoop && e.source == id && e.type == identityType n.type with
    | some e =>
      dsimp only
      cases s.edge? e.id with
      | none => rfl
      | some _ => rfl
    | none =>
      dsimp only
      rw [run_link]
      cases s.addEdge { id := "identity_" ++ id, source := id, target := id, type := identityType n.type } with
      | error err => rfl
      | ok t => rfl

/-! ## Indexes -/

theorem run_createIndex (name : String) (kind : Index.Kind) (paths : List String) :
    (createIndex name kind paths).run s =
      ((s.createIndex name kind paths).map fun _ => (), (s.createIndex name kind paths).toOption.getD s) := by
  unfold createIndex Store.createIndex
  rw [run_get_bind]
  cases Catalog.contains name s.indexes with
  | true => rfl
  | false =>
    cases h : Index.build kind paths with
    | error e => rfl
    | ok i =>
      have hfilled : (s.entities i.target).foldl Index.add i = i.rebuilt (s.entities i.target) :=
        congrArg ((s.entities i.target).foldl Index.add ·) (Index.build_eq_ok h).2.1.symm
      simp only [Bool.false_eq_true, if_false]
      rw [run_get_bind, hfilled]
      rfl

/-! ## Relationships -/

theorem run_link_of_present {s : Store} {e : Edge} (hs : s.hasNode e.source = true) (ht : s.hasNode e.target = true) :
    (link e).run s = (some e, s.putEdge e) := by
  rw [run_link, Store.addEdge_of_present hs ht]
  rfl

theorem edges_of_defineRelationship {source relation target : String} {es : List Edge} {t : Store}
    (h : Ontology.defineRelationship source relation target s = some (es, t)) :
    es = [Ontology.domainEdge source relation, Ontology.rangeEdge relation target] := by
  unfold Ontology.defineRelationship at h
  split at h
  · dsimp only at h
    split at h
    · split at h
      · cases h
        rfl
      · cases h
    · cases h
  · cases h

theorem run_defineRelationship (source relation target : String) :
    (Ontology.InPlace.defineRelationship source relation target).run s =
      (((Ontology.defineRelationship source relation target s).map (·.1)).getD [],
        ((Ontology.defineRelationship source relation target s).map (·.2)).getD s) := by
  unfold Ontology.InPlace.defineRelationship
  rw [run_get_bind, ← List.not_all_eq_any_not]
  cases hall : [source, relation, target].all (s.hasNode ·) with
  | false =>
    unfold Ontology.defineRelationship
    rw [hall]
    rfl
  | true =>
    simp only [List.all_cons, List.all_nil, Bool.and_true, Bool.and_eq_true] at hall
    obtain ⟨hs, hr, ht⟩ := hall
    have hd : (link (Ontology.domainEdge source relation)).run s = (some _, _) := run_link_of_present hs hr
    have hg : (link (Ontology.rangeEdge relation target)).run (s.putEdge (Ontology.domainEdge source relation)) =
        (some _, _) :=
      run_link_of_present ((s.hasNode_putEdge _ relation).trans hr) ((s.hasNode_putEdge _ target).trans ht)
    rw [Ontology.defineRelationship_of_present hs hr ht, Bool.not_true, if_neg Bool.false_ne_true, List.filterMapM_cons,
      run_bind_of_run hd]
    dsimp only
    rw [List.filterMapM_cons, bind_assoc, run_bind_of_run hg]
    rfl

end InPlace

/-! ## What a write can report -/

inductive Attempt where
  | addEdge (e : Edge)
  | createIndex (name : String) (kind : Index.Kind) (paths : List String)
  | removeNode (id : String)
  | removeEdge (id : String)
  | setNodeProperty (id name : String) (v : Value)
  | setEdgeProperty (id name : String) (v : Value)
  | identity (id : String)
  | defineIsA (source target : String)
  | defineHasProperty (concept property : String)
  | defineRelationship (source relation target : String)
  | relateContexts (source target type : String) (properties : Properties)
  | refineContext (general specific : String) (properties : Properties)
  | relateInstances (id source type target : String) (properties : Properties)

namespace Attempt

abbrev Report : Attempt → Type
  | .addEdge _ => Except Error Edge
  | .createIndex .. => Except Error Unit
  | .removeNode _ | .removeEdge _ | .setNodeProperty .. | .setEdgeProperty .. => Bool
  | .defineRelationship .. => List Edge
  | .identity _ | .defineIsA .. | .defineHasProperty .. | .relateContexts .. | .refineContext ..
  | .relateInstances .. => Option Edge

def write : (a : Attempt) → StateM Store a.Report
  | .addEdge e => InPlace.addEdge e
  | .createIndex name kind paths => InPlace.createIndex name kind paths
  | .removeNode id => InPlace.removeNode id
  | .removeEdge id => InPlace.removeEdge id
  | .setNodeProperty id name v => InPlace.setNodeProperty id name v
  | .setEdgeProperty id name v => InPlace.setEdgeProperty id name v
  | .identity id => InPlace.identity id
  | .defineIsA source target => Ontology.InPlace.defineIsA source target
  | .defineHasProperty concept property => Ontology.InPlace.defineHasProperty concept property
  | .defineRelationship source relation target => Ontology.InPlace.defineRelationship source relation target
  | .relateContexts source target type properties => Contexts.InPlace.relate source target type properties
  | .refineContext general specific properties => Contexts.InPlace.refine general specific properties
  | .relateInstances id source type target properties => Instances.InPlace.relate id source type target properties

def failed : (a : Attempt) → a.Report → Bool
  | .addEdge _, r => !r.isOk
  | .createIndex .., r => !r.isOk
  | .removeNode _, r => !r
  | .removeEdge _, r => !r
  | .setNodeProperty .., r => !r
  | .setEdgeProperty .., r => !r
  | .identity _, r => r.isNone
  | .defineIsA .., r => r.isNone
  | .defineHasProperty .., r => r.isNone
  | .defineRelationship .., r => r.isEmpty
  | .relateContexts .., r => r.isNone
  | .refineContext .., r => r.isNone
  | .relateInstances .., r => r.isNone

def outcome (s : Store) : Attempt → Option Store
  | .addEdge e => (s.addEdge e).toOption
  | .createIndex name kind paths => (s.createIndex name kind paths).toOption
  | .removeNode id => s.removeNode id
  | .removeEdge id => s.removeEdge id
  | .setNodeProperty id name v => s.setNodeProperty id name v
  | .setEdgeProperty id name v => s.setEdgeProperty id name v
  | .identity id => (s.identity id).map (·.2)
  | .defineIsA source target => (s.addEdge (Ontology.isAEdge source target)).toOption
  | .defineHasProperty concept property => (s.addEdge (Ontology.hasPropertyEdge concept property)).toOption
  | .defineRelationship source relation target => (Ontology.defineRelationship source relation target s).map (·.2)
  | .relateContexts source target type properties =>
    (s.addEdge (Contexts.relation source target type properties)).toOption
  | .refineContext general specific properties =>
    (s.addEdge (Contexts.refinement general specific properties)).toOption
  | .relateInstances id source type target properties =>
    (s.addEdge (Instances.relation id source type target properties)).toOption

end Attempt

theorem run_write (a : Attempt) {s : Store} (hs : s.Linked) :
    a.failed (a.write.run s).1 = (a.outcome s).isNone ∧ (a.write.run s).2 = (a.outcome s).getD s := by
  have hflag : ∀ {w : StateM Store Bool} {o : Option Store}, w.run s = (o.isSome, o.getD s) →
      (!(w.run s).1) = o.isNone ∧ (w.run s).2 = o.getD s := by
    intro w o h
    rw [h]
    exact ⟨Option.not_isSome o, rfl⟩
  have hresult : ∀ {α : Type} {w : StateM Store (Except Error α)} {r : Except Error Store} {x : α},
      w.run s = (r.map fun _ => x, r.toOption.getD s) →
        (!(w.run s).1.isOk) = r.toOption.isNone ∧ (w.run s).2 = r.toOption.getD s := by
    intro α w r x h
    rw [h]
    cases r with
    | error err => exact ⟨rfl, rfl⟩
    | ok t => exact ⟨rfl, rfl⟩
  have hlink : ∀ e, ((InPlace.link e).run s).1.isNone = (s.addEdge e).toOption.isNone ∧
      ((InPlace.link e).run s).2 = (s.addEdge e).toOption.getD s := by
    intro e
    rw [InPlace.run_link]
    exact ⟨Option.isNone_map, rfl⟩
  cases a with
  | addEdge e => exact hresult (InPlace.run_addEdge s e)
  | createIndex name kind paths => exact hresult (InPlace.run_createIndex s name kind paths)
  | removeNode id => exact hflag (InPlace.run_removeNode s hs id)
  | removeEdge id => exact hflag (InPlace.run_removeEdge s id)
  | setNodeProperty id name v => exact hflag (InPlace.run_setNodeProperty s hs id name v)
  | setEdgeProperty id name v => exact hflag (InPlace.run_setEdgeProperty s hs id name v)
  | identity id =>
    change ((InPlace.identity id).run s).1.isNone = _ ∧ ((InPlace.identity id).run s).2 = _
    rw [InPlace.run_identity]
    exact ⟨Option.isNone_map.trans Option.isNone_map.symm, rfl⟩
  | defineRelationship source relation target =>
    change ((Ontology.InPlace.defineRelationship source relation target).run s).1.isEmpty = _ ∧
      ((Ontology.InPlace.defineRelationship source relation target).run s).2 = _
    rw [InPlace.run_defineRelationship]
    refine ⟨?_, rfl⟩
    change _ = ((Ontology.defineRelationship source relation target s).map (·.2)).isNone
    cases h : Ontology.defineRelationship source relation target s with
    | none => rfl
    | some r =>
      obtain ⟨es, t⟩ := r
      cases InPlace.edges_of_defineRelationship s h
      rfl
  | defineIsA source target => exact hlink _
  | defineHasProperty concept property => exact hlink _
  | relateContexts source target type properties => exact hlink _
  | refineContext general specific properties => exact hlink _
  | relateInstances id source type target properties => exact hlink _

end Store

end TriGraph
