import TriGraph.Proofs.Store.Changes

/-!
# What matching looks at

A constraint asks its store for nodes by id, and has ids to ask for only while it stands on an edge. So a node is
matched by itself and an edge by itself and the two nodes at its ends, whatever else is written.
-/

namespace TriGraph

/-! ## Walks -/

def Place.ends : Place → List String
  | .entity e => e.ends
  | _ => []

section
variable {find find' : NodeLookup} {e : Entity} {p q : Place} {name : String}

theorem Place.ends_of_attribute? (h : attribute? find name e = some q) : q.ends = [] := by
  unfold attribute? at h
  split at h
  · cases h; rfl
  · cases h; rfl
  · cases h; rfl
  · obtain ⟨n, -, rfl⟩ := Option.map_eq_some_iff.mp h
    rfl
  · obtain ⟨n, -, rfl⟩ := Option.map_eq_some_iff.mp h
    rfl
  · cases h

theorem Place.ends_of_step? (h : p.step? find name = some q) : q.ends = [] := by
  cases p with
  | entity e => exact ends_of_attribute? h
  | bag ps =>
    obtain ⟨v, -, rfl⟩ := Option.map_eq_some_iff.mp h
    rfl
  | value v =>
    cases v with
    | object fields =>
      obtain ⟨v, -, rfl⟩ := Option.map_eq_some_iff.mp h
      rfl
    | _ => cases h

theorem Place.attribute?_congr (h : ∀ id ∈ e.ends, find id = find' id) (name : String) :
    attribute? find name e = attribute? find' name e := by
  unfold attribute?
  split
  case h_4 e => rw [h e.source (by simp [Entity.ends])]
  case h_5 e => rw [h e.target (by simp [Entity.ends])]
  all_goals rfl

theorem Place.step?_congr (h : ∀ id ∈ p.ends, find id = find' id) (name : String) :
    p.step? find name = p.step? find' name := by
  cases p with
  | entity e => exact attribute?_congr h name
  | bag ps => rfl
  | value v => cases v <;> rfl

theorem Place.walk?_congr (h : ∀ id ∈ p.ends, find id = find' id) (segments : List String) :
    p.walk? find segments = p.walk? find' segments := by
  induction segments generalizing p with
  | nil => rfl
  | cons name segments ih =>
    rw [walk?, walk?, ← step?_congr h name]
    cases hq : p.step? find name with
    | none => rfl
    | some q => exact ih (by simp [ends_of_step? hq])

/-! ## Clauses -/

theorem fieldValue?_congr (h : ∀ id ∈ e.ends, find id = find' id) (key : String) :
    fieldValue? find e key = fieldValue? find' e key := by
  unfold fieldValue?
  rw [Place.attribute?_congr h key]

theorem pathValue?_congr (h : ∀ id ∈ e.ends, find id = find' id) (segments : List String) :
    pathValue? find e segments = pathValue? find' e segments := by
  unfold pathValue?
  rw [Place.walk?_congr (p := .entity e) h segments]

end

-- along the nesting of the constraint
mutual
theorem Clause.holds_congr {find find' : NodeLookup} {e : Entity} (h : ∀ id ∈ e.ends, find id = find' id)
    (c : Clause) : c.holds find e = c.holds find' e := by
  cases c with
  | all subs => exact allHold_congr h subs
  | any subs => exact anyHolds_congr h subs
  | path segments p => simp only [Clause.holds, pathValue?_congr h segments]
  | field key p => simp only [Clause.holds, fieldValue?_congr h key]
  | properties expected => rfl
theorem clausesHold_congr {find find' : NodeLookup} {e : Entity} (h : ∀ id ∈ e.ends, find id = find' id)
    (cs : List Clause) : clausesHold find e cs = clausesHold find' e cs := by
  cases cs with
  | nil => rfl
  | cons c cs => rw [clausesHold, clausesHold, Clause.holds_congr h c, clausesHold_congr h cs]
theorem allHold_congr {find find' : NodeLookup} {e : Entity} (h : ∀ id ∈ e.ends, find id = find' id)
    (subs : List (List Clause)) : allHold find e subs = allHold find' e subs := by
  cases subs with
  | nil => rfl
  | cons s subs => rw [allHold, allHold, clausesHold_congr h s, allHold_congr h subs]
theorem anyHolds_congr {find find' : NodeLookup} {e : Entity} (h : ∀ id ∈ e.ends, find id = find' id)
    (subs : List (List Clause)) : anyHolds find e subs = anyHolds find' e subs := by
  cases subs with
  | nil => rfl
  | cons s subs => rw [anyHolds, anyHolds, clausesHold_congr h s, anyHolds_congr h subs]
end

/-! ## Stores -/

namespace Store

def Finds (q : Constraint) (s : Store) : Entity → Prop
  | .node n => n ∈ s.findNodes q
  | .edge e => e ∈ s.findEdges q

theorem finds_iff {q : Constraint} {s : Store} {d : Entity} : s.Finds q d ↔ s.Contains d ∧ s.holds q d = true := by
  cases d with
  | node n => exact List.mem_filter
  | edge e => exact List.mem_filter

theorem holds_congr {s t : Store} {d : Entity} (h : ∀ id ∈ d.ends, s.node? id = t.node? id) (q : Constraint) :
    s.holds q d = t.holds q d :=
  clausesHold_congr h q

/-- Any two stores agree on a node, and on an edge if its ends lead to the same nodes in both or to none in both. -/
theorem matching_local (q : Constraint) :
    (∀ (s t : Store) (n : Node), s.holds q (.node n) = t.holds q (.node n)) ∧
    (∀ (s t : Store) (e : Edge), s.node? e.source = t.node? e.source → s.node? e.target = t.node? e.target →
      s.holds q (.edge e) = t.holds q (.edge e)) ∧
    ∀ s : Store, s.Reachable → ∀ (cs : List Command) (d : Entity), (∀ c ∈ cs, c.Spares d) →
      (s.run cs).holds q d = s.holds q d ∧ ((s.run cs).Finds q d ↔ s.Finds q d) := by
  refine ⟨fun s t n => ?_, fun s t e hs ht => ?_, fun s hs cs d hcs => ?_⟩
  · exact holds_congr (by simp [Entity.ends]) q
  · refine holds_congr (fun id hid => ?_) q
    rcases List.mem_pair.mp hid with rfl | rfl
    · exact hs
    · exact ht
  · have hholds : (s.run cs).holds q d = s.holds q d :=
      holds_congr (fun id hid => node?_run_of_subject_ne hs fun c hc => (hcs c hc).ends id hid) q
    refine ⟨hholds, ?_⟩
    rw [finds_iff, finds_iff, hholds, contains_run_of_spares hs hcs]

def orchard : Store :=
  (new "orchard" []).run [.addNode { id := "a", type := "Tree", properties := [("height", .int 3)] },
    .addNode { id := "b", type := "Tree" }, .addNode { id := "c", type := "Hedge" },
    .addEdge { id := "e", source := "a", target := "b", type := "SHADES" },
    .addEdge { id := "f", source := "c", target := "b", type := "SHADES" }]

def shade : Edge :=
  { id := "e", source := "a", target := "b", type := "SHADES" }

def fromTall : Constraint :=
  Constraint.compare "source.properties.height" .gt (.int 2) []

def gardening : List Command :=
  [.removeNode "c", .addNode { id := "d", type := "Tree", properties := [("height", .int 1)] },
    .addEdge { id := "g", source := "d", target := "a", type := "SHADES" }, .setNodeProperty "d" "height" (.int 9),
    .createIndex "height" .ordered ["node.properties.height"], .identity "a"]

theorem matching_local_orchard :
    orchard.Reachable ∧ (∀ c ∈ gardening, c.Spares (.edge shade)) ∧ orchard.Finds fromTall (.edge shade) ∧
      (orchard.run gardening).Finds fromTall (.edge shade) ∧
      (orchard.run gardening).node? "a" = orchard.node? "a" ∧
      (orchard.run gardening).node? "b" = orchard.node? "b" ∧
      (orchard.run gardening).holds fromTall (.edge shade) = orchard.holds fromTall (.edge shade) := by
  have hr : orchard.Reachable := (Reachable.start "orchard" fresh_nil).run _
  have hs : ∀ c ∈ gardening, c.Spares (.edge shade) := by
    simp only [gardening, List.forall_mem_cons]
    refine ⟨?_, ?_, ?_, ?_, ?_, ?_, fun _ h => (nomatch h)⟩ <;> exact ⟨by decide, by decide⟩
  have hf : orchard.Finds fromTall (.edge shade) := by
    refine finds_iff.mpr ⟨?_, by decide +kernel⟩
    have he : orchard.edge? "e" = some shade := rfl
    exact (hr.linked.edges.get?_eq_some.mp he).1
  obtain ⟨-, hedge, hrun⟩ := matching_local fromTall
  have ha : (orchard.run gardening).node? "a" = orchard.node? "a" :=
    node?_run_of_subject_ne hr fun c hc => (hs c hc).ends "a" (by decide)
  have hb : (orchard.run gardening).node? "b" = orchard.node? "b" :=
    node?_run_of_subject_ne hr fun c hc => (hs c hc).ends "b" (by decide)
  exact ⟨hr, hs, hf, (hrun orchard hr gardening (.edge shade) hs).2.mpr hf, ha, hb, hedge _ _ shade ha hb⟩

end Store

end TriGraph
