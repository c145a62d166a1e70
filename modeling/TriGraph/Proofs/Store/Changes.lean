import TriGraph.Proofs.Store.Removal

/-!
# What a command changes

A command changes a store in one of three ways: not at all, by putting one entity in the place of its namesake, or by
taking out what it names and what hangs on it.
-/

namespace TriGraph

def Entity.ends : Entity → List String
  | .node _ => []
  | .edge e => [e.source, e.target]

namespace Store

/-! ## One change -/

def Command.Puts (s : Store) : Command → Entity → Prop
  | .addNode n, d => d = .node n
  | .addEdge e, d => d = .edge e
  | .setNodeProperty id name v, d => ∃ n, s.Contains (.node n) ∧ n.id = id ∧ d = .node (n.setProperty name v)
  | .setEdgeProperty id name v, d => ∃ e, s.Contains (.edge e) ∧ e.id = id ∧ d = .edge (e.setProperty name v)
  | .identity id, d => ∃ type, d = .edge { id := "identity_" ++ id, source := id, target := id, type }
  | _, _ => False

def Command.Removes : Command → Entity → Prop
  | .removeNode id, d => (d.kind = .nodes ∧ d.id = id) ∨ id ∈ d.ends
  | .removeEdge id, d => d.kind = .edges ∧ d.id = id
  | _, _ => False

inductive Change (s : Store) (c : Command) (t : Store) : Prop where
  | nothing (h : ∀ d, t.Contains d ↔ s.Contains d)
  | put {x : Entity} (hx : c.Puts s x)
      (h : ∀ d, t.Contains d ↔ d = x ∨ (s.Contains d ∧ ¬(d.kind = x.kind ∧ d.id = x.id)))
  | remove (h : ∀ d, t.Contains d ↔ s.Contains d ∧ ¬c.Removes d)

theorem change_createIndex (s : Store) (name : String) (kind : Index.Kind) (paths : List String) :
    Change s (.createIndex name kind paths) ((s.createIndex name kind paths).toOption.getD s) := by
  cases hc : s.createIndex name kind paths with
  | error _ => exact .nothing fun _ => Iff.rfl
  | ok t =>
    obtain ⟨-, i, -, rfl⟩ := createIndex_eq_ok hc
    exact .nothing fun d => by cases d <;> exact Iff.rfl

section
variable {s : Store} (hl : s.Linked)
include hl

theorem change_addEdge {c : Command} {e : Edge} (he : c.Puts s (.edge e)) :
    Change s c ((s.addEdge e).toOption.getD s) := by
  cases ha : s.addEdge e with
  | error _ => exact .nothing fun _ => Iff.rfl
  | ok t =>
    obtain ⟨-, -, rfl⟩ := addEdge_eq_ok ha
    exact .put he (contains_putEdge hl e)

theorem change_removeNode (id : String) : Change s (.removeNode id) ((s.removeNode id).getD s) := by
  cases hr : s.removeNode id with
  | none => exact .nothing fun _ => Iff.rfl
  | some t =>
    refine .remove fun d => ?_
    cases d with
    | node n => simp [Contains, hl.allNodes_removeNode hr, Command.Removes, Entity.kind, Entity.id, Entity.ends]
    | edge e =>
      simp [Contains, hl.allEdges_removeNode hr, Command.Removes, Entity.kind, Entity.ends, eq_comm (a := id)]

theorem change_removeEdge (id : String) : Change s (.removeEdge id) ((s.removeEdge id).getD s) := by
  refine .remove fun d => ?_
  cases d with
  | node n => simp [Contains, allNodes, Linked.nodes_removeEdge, Command.Removes, Entity.kind]
  | edge e => simp [Contains, hl.allEdges_removeEdge, Command.Removes, Entity.kind, Entity.id]

theorem change_setNodeProperty (id name : String) (v : Value) :
    Change s (.setNodeProperty id name v) ((s.setNodeProperty id name v).getD s) := by
  cases hn : s.node? id with
  | none =>
    rw [setNodeProperty, hn]
    exact .nothing fun _ => Iff.rfl
  | some n =>
    obtain ⟨hm, hid⟩ := hl.nodes.get?_eq_some.mp hn
    rw [hl.setNodeProperty_eq hn]
    exact .put ⟨n, hm, hid, rfl⟩ (contains_addNode hl _)

theorem change_setEdgeProperty (id name : String) (v : Value) :
    Change s (.setEdgeProperty id name v) ((s.setEdgeProperty id name v).getD s) := by
  cases he : s.edge? id with
  | none =>
    rw [setEdgeProperty, he]
    exact .nothing fun _ => Iff.rfl
  | some e =>
    obtain ⟨hm, hid⟩ := hl.edges.get?_eq_some.mp he
    rw [hl.setEdgeProperty_eq he]
    exact .put ⟨e, hm, hid, rfl⟩ (contains_putEdge hl _)

theorem change_identity (id : String) : Change s (.identity id) (((s.identity id).map (·.2)).getD s) := by
  unfold identity
  cases s.node? id with
  | none => exact .nothing fun _ => Iff.rfl
  | some n =>
    simp only [bind, Option.bind]
    split
    · rename_i e _
      cases s.edge? e.id <;> exact .nothing fun _ => Iff.rfl
    · have hadd := change_addEdge hl (c := .identity id)
        (e := { id := "identity_" ++ id, source := id, target := id, type := identityType n.type }) ⟨_, rfl⟩
      split
      · rename_i t ht
        rw [ht] at hadd
        exact hadd
      · exact .nothing fun _ => Iff.rfl

theorem change_step (c : Command) : Change s c (s.step c) := by
  cases c with
  | addNode n => exact .put rfl (contains_addNode hl n)
  | addEdge e => exact change_addEdge hl rfl
  | removeNode id => exact change_removeNode hl id
  | removeEdge id => exact change_removeEdge hl id
  | setNodeProperty id name v => exact change_setNodeProperty hl id name v
  | setEdgeProperty id name v => exact change_setEdgeProperty hl id name v
  | identity id => exact change_identity hl id
  | createIndex name kind paths => exact change_createIndex s name kind paths

end

/-! ## What is left alone -/

def Command.subject? : Command → Option (EntityKind × String)
  | .addNode n => some (.nodes, n.id)
  | .addEdge e => some (.edges, e.id)
  | .removeNode id => some (.nodes, id)
  | .removeEdge id => some (.edges, id)
  | .setNodeProperty id _ _ => some (.nodes, id)
  | .setEdgeProperty id _ _ => some (.edges, id)
  | .identity id => some (.edges, "identity_" ++ id)
  | .createIndex _ _ _ => none

/-- The command is about neither the entity nor a node at its ends. -/
structure Command.Spares (c : Command) (d : Entity) : Prop where
  self : c.subject? ≠ some (d.kind, d.id)
  ends : ∀ id ∈ d.ends, c.subject? ≠ some (.nodes, id)

theorem Command.Puts.subject?_eq {s : Store} {c : Command} {x : Entity} (h : c.Puts s x) :
    c.subject? = some (x.kind, x.id) := by
  cases c with
  | addNode n => cases h; rfl
  | addEdge e => cases h; rfl
  | setNodeProperty id name v =>
    obtain ⟨n, -, rfl, rfl⟩ := h
    rfl
  | setEdgeProperty id name v =>
    obtain ⟨e, -, rfl, rfl⟩ := h
    rfl
  | identity id =>
    obtain ⟨type, rfl⟩ := h
    rfl
  | _ => cases h

theorem Command.Spares.not_removes {c : Command} {d : Entity} (h : c.Spares d) : ¬c.Removes d := by
  cases c with
  | removeNode id =>
    rintro (⟨hk, hid⟩ | hid)
    · exact h.self (by rw [hk, hid]; rfl)
    · exact h.ends id hid rfl
  | removeEdge id =>
    rintro ⟨hk, hid⟩
    exact h.self (by rw [hk, hid]; rfl)
  | _ => exact fun hr => hr

section
variable {s : Store}

theorem contains_step_of_spares (hl : s.Linked) {c : Command} {d : Entity} (h : c.Spares d) :
    (s.step c).Contains d ↔ s.Contains d := by
  cases change_step hl c with
  | nothing hc => exact hc d
  | @put x hx hc =>
    have hne : ¬(d.kind = x.kind ∧ d.id = x.id) := fun ⟨hk, hid⟩ => h.self (by rw [hx.subject?_eq, hk, hid])
    have hdx : d ≠ x := fun hd => hne ⟨congrArg Entity.kind hd, congrArg Entity.id hd⟩
    rw [hc d, or_iff_right hdx]
    exact and_iff_left hne
  | remove hc =>
    rw [hc d]
    exact and_iff_left h.not_removes

theorem contains_run_of_spares (hs : s.Reachable) {cs : List Command} {d : Entity} (h : ∀ c ∈ cs, c.Spares d) :
    (s.run cs).Contains d ↔ s.Contains d := by
  induction cs generalizing s with
  | nil => exact Iff.rfl
  | cons c cs ih =>
    obtain ⟨hc, hcs⟩ := List.forall_mem_cons.mp h
    exact (ih (hs.step c) hcs).trans (contains_step_of_spares hs.linked hc)

theorem node?_run_of_subject_ne (hs : s.Reachable) {cs : List Command} {id : String}
    (h : ∀ c ∈ cs, c.subject? ≠ some (.nodes, id)) : (s.run cs).node? id = s.node? id := by
  refine Option.ext fun n => ?_
  rw [node?, node?, (hs.run cs).linked.nodes.get?_eq_some, hs.linked.nodes.get?_eq_some]
  refine and_congr_left fun hid => ?_
  subst hid
  exact contains_run_of_spares (d := .node n) hs fun c hc => ⟨h c hc, fun _ hid => absurd hid List.not_mem_nil⟩

end

/-! ## Where bags come from -/

def Command.Bears (P : Properties → Prop) (Q : Value → Prop) : Command → Prop
  | .addNode n => P n.properties
  | .addEdge e => P e.properties
  | .setNodeProperty _ _ v => Q v
  | .setEdgeProperty _ _ v => Q v
  | _ => True

section
variable {P : Properties → Prop} {Q : Value → Prop} (hempty : P [])
  (hinsert : ∀ ps name v, P ps → Q v → P (Catalog.insert name v ps))
include hempty hinsert

theorem Command.Puts.bag {s : Store} (hs : ∀ d, s.Contains d → P d.properties) {c : Command} (hc : c.Bears P Q)
    {x : Entity} (hx : c.Puts s x) : P x.properties := by
  cases c with
  | addNode n => cases hx; exact hc
  | addEdge e => cases hx; exact hc
  | setNodeProperty id name v =>
    obtain ⟨n, hn, -, rfl⟩ := hx
    exact hinsert n.properties name v (hs _ hn) hc
  | setEdgeProperty id name v =>
    obtain ⟨e, he, -, rfl⟩ := hx
    exact hinsert e.properties name v (hs _ he) hc
  | identity id =>
    obtain ⟨type, rfl⟩ := hx
    exact hempty
  | _ => cases hx

theorem bags_step {s : Store} (hl : s.Linked) (hs : ∀ d, s.Contains d → P d.properties) {c : Command}
    (hc : c.Bears P Q) : ∀ d, (s.step c).Contains d → P d.properties := by
  intro d hd
  cases change_step hl c with
  | nothing h => exact hs d ((h d).mp hd)
  | @put x hx h =>
    rcases (h d).mp hd with rfl | ⟨hd, -⟩
    · exact hx.bag hempty hinsert hs hc
    · exact hs d hd
  | remove h => exact hs d ((h d).mp hd).1

theorem bags_run {s : Store} (hl : s.Linked) (hs : ∀ d, s.Contains d → P d.properties) {cs : List Command}
    (hcs : ∀ c ∈ cs, c.Bears P Q) : ∀ d, (s.run cs).Contains d → P d.properties := by
  induction cs generalizing s with
  | nil => exact hs
  | cons c cs ih =>
    obtain ⟨hc, hcs⟩ := List.forall_mem_cons.mp hcs
    exact ih (hl.edits (hl.edits_step c)) (bags_step hempty hinsert hl hs hc) hcs

end

end Store

end TriGraph
