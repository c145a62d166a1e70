import TriGraph.Proofs.Constraint.Rearrangement
import TriGraph.Proofs.Index.Bounds
import TriGraph.Proofs.Store.Ranges

/-!
# Ranges and scans

A range of an index over one property and a scan for the values of that property between the same bounds find the same
nodes, or edges.
-/

namespace TriGraph

/-! ## Values between bounds -/

namespace Constraint

def bounding (name : String) (lo hi : Value) : Constraint :=
  (Constraint.compare ("properties." ++ name) .gte lo []).compare ("properties." ++ name) .lte hi

def boundingDocument (name : String) (lo hi : Value) : Document :=
  .object [("properties." ++ name, .object [("$gte", lo.toDocument), ("$lte", hi.toDocument)])]

theorem matches_bounding {find : NodeLookup} {name : String} (hname : '.' ∉ name.toList) {lo hi : Value}
    {e : Entity} : (bounding name lo hi).matches find e = true ↔
      ∃ u, Catalog.get? name e.properties = some u ∧ u.atLeast lo = true ∧ u.atMost hi = true := by
  unfold bounding Constraint.compare Constraint.test Constraint.matches
  simp only [List.nil_append, List.singleton_append, clausesHold, Bool.and_true, Bool.and_eq_true, holds_property hname,
    Predicate.test]
  cases Catalog.get? name e.properties <;> simp

theorem ofDocument_bounds {lo hi : Value} (hb : Value.Bounds lo hi) :
    Value.ofDocument? lo.toDocument = some lo ∧ Value.ofDocument? hi.toDocument = some hi := by
  have hint : ∀ n : Int64, Value.ofDocument? (Value.int n).toDocument = some (.int n) := by
    intro n
    simp [Value.toDocument, Value.ofDocument?, Index.Key.fitsInt64_toInt]
  cases hb with
  | texts s t => exact ⟨rfl, rfl⟩
  | truths a b => exact ⟨rfl, rfl⟩
  | integers _ _ => exact ⟨hint _, hint _⟩

theorem ofDocument_bounding (name : String) {lo hi : Value} (hb : Value.Bounds lo hi) :
    ofDocument (boundingDocument name lo hi) = .ok (bounding name lo hi) := by
  obtain ⟨hlo, hhi⟩ := ofDocument_bounds hb
  have hn : ¬Reserved ("properties." ++ name) := by
    rw [← isOperator_iff, isOperator, String.toList_append]
    simp
  have hp : "properties." ++ name ≠ "properties" := by
    intro h
    have hlen : 10 = 11 + name.length := (congrArg String.length h).symm.trans (String.length_append ..)
    omega
  have hreserved : Reserved "$gte" ∧ Reserved "$lte" := ⟨⟨"gte", rfl⟩, "lte", rfl⟩
  have hc : Comparative [("$gte", lo.toDocument), ("$lte", hi.toDocument)] := by simp [Comparative, hreserved]
  unfold boundingDocument
  rw [ofDocument, ofFields, ofFields, ofFieldOrJoin_comparisons hn hp hc]
  simp only [comparisons, Comparison.ofOperator?, literal_eq_ok.mpr hlo, literal_eq_ok.mpr hhi]
  rfl

end Constraint

/-! ## Ranges of one property -/

namespace Index

theorem mem_keysOf_of_singleton {i : Index} {p : Path} (hi : i.paths = [p]) {e : Entity} (ht : e.kind = i.target)
    {k : Key} : k ∈ i.keysOf e ↔ p.key? e = some k := by
  rw [keysOf, if_pos ht, hi, List.mem_filterMap]
  simp

theorem Ranges.perm {i : Index} {lo hi : Key} {α : Type} {f : α → Entity} (hf : Function.Injective f)
    {stored found : List α} (h : i.Ranges lo hi (stored.map f) (found.map f)) (hs : stored.Nodup) {q : α → Bool}
    (hq : ∀ x ∈ stored, q x = true ↔ ∃ k ∈ i.keysOf (f x), Key.between lo hi k = true) :
    found.Perm (stored.filter q) := by
  refine (List.perm_ext_iff_of_nodup ((h.once.of_map _).of_map _) (hs.filter _)).mpr fun x => ?_
  have hmem : x ∈ found ↔ x ∈ stored ∧ ∃ k ∈ i.keysOf (f x), Key.between lo hi k = true := by
    simpa [hf.eq_iff, Key.between] using h.mem_iff (f x)
  rw [hmem, List.mem_filter]
  exact and_congr_right fun hx => (hq x hx).symm

end Index

namespace Store

variable {s : Store}

theorem Attached.target_eq {i : Index} (h : s.Attached i) {p : Index.Path} (hp : i.paths = [p]) : p.target = i.target :=
  h.target_of_mem (hp ▸ List.mem_singleton_self p)

theorem nodup_allNodes (h : s.Linked) : s.allNodes.Nodup :=
  h.nodes.distinct.of_map _

theorem nodup_allEdges (h : s.Linked) : s.allEdges.Nodup :=
  h.edges.distinct.of_map _

theorem holds_bounding_iff {i : Index} {p : Index.Path} {name : String} (hpaths : i.paths = [p]) {e : Entity}
    (ht : e.kind = i.target) (hp : p.key? e = (Catalog.get? name e.properties).bind Index.Key.ofValue?)
    (hname : '.' ∉ name.toList) {lo hi : Value} {kl kh : Index.Key} (hl : Index.Key.Bound lo kl)
    (hh : Index.Key.Bound hi kh) (htier : kl.tier = kh.tier) :
    s.holds (Constraint.bounding name lo hi) e = true ↔ ∃ k ∈ i.keysOf e, Index.Key.between kl kh k = true := by
  simp only [holds, Constraint.matches_bounding hname, ← Index.Key.between_iff hl hh htier,
    Index.mem_keysOf_of_singleton hpaths ht, hp, Option.bind_eq_some_iff]
  constructor
  · rintro ⟨u, hu, k, hk, hb⟩
    exact ⟨k, ⟨u, hu, hk⟩, hb⟩
  · rintro ⟨k, ⟨u, hu, hk⟩, hb⟩
    exact ⟨u, hu, k, hk, hb⟩

/-- Between two texts, two truth values or two integers of 53 bits, a range finds what a scan finds. -/
theorem range_perm_scan (hs : s.Reachable) {index : String} {i : Index} (hindex : s.index? index = some i)
    (ho : i.kind = .ordered) {name : String} (hname : '.' ∉ name.toList) {lo hi : Value} (hb : Value.Bounds lo hi)
    {kl kh : Index.Key} (hl : Index.Key.ofValue? lo = some kl) (hh : Index.Key.ofValue? hi = some kh) :
    Constraint.ofDocument (Constraint.boundingDocument name lo hi) = .ok (Constraint.bounding name lo hi) ∧
      (i.paths = [.nodeProperty name] → ∃ ns, s.nodesInRange index kl kh = .ok ns ∧
        ns.Perm (s.findNodes (Constraint.bounding name lo hi))) ∧
      (i.paths = [.edgeProperty name] → ∃ es, s.edgesInRange index kl kh = .ok es ∧
        es.Perm (s.findEdges (Constraint.bounding name lo hi))) := by
  have hlinked := hs.linked
  have ha := hs.current index i hindex
  have hranges := fun kind => ranges_filterMap hlinked ha ho (hs.shelved.seen _ (Catalog.mem_of_get? hindex))
    (hs.overseen index i hindex) kind kl kh
  obtain ⟨hbl, hbh, ht⟩ := hb.keys hl hh
  refine ⟨Constraint.ofDocument_bounding name hb, fun hpaths => ?_, fun hpaths => ?_⟩
  · have htarget : .nodes = i.target := ha.target_eq hpaths
    refine ⟨(Index.distinct ((i.keysBetween kl kh).flatMap (i.lookup .nodes))).filterMap (s.node? ·), ?_, ?_⟩
    · unfold nodesInRange
      rw [rangeIds_of_ordered hindex ho]
      rfl
    · have hr := hranges .nodes
      unfold entity? at hr
      rw [← List.map_filterMap] at hr
      exact hr.perm (fun _ _ => Entity.node.inj) (nodup_allNodes hlinked) fun n _ =>
        holds_bounding_iff (e := .node n) hpaths htarget rfl hname hbl hbh ht
  · have htarget : .edges = i.target := ha.target_eq hpaths
    refine ⟨(Index.distinct ((i.keysBetween kl kh).flatMap (i.lookup .edges))).filterMap (s.edge? ·), ?_, ?_⟩
    · unfold edgesInRange
      rw [rangeIds_of_ordered hindex ho]
      rfl
    · have hr := hranges .edges
      unfold entity? at hr
      rw [← List.map_filterMap] at hr
      exact hr.perm (fun _ _ => Entity.edge.inj) (nodup_allEdges hlinked) fun e _ =>
        holds_bounding_iff (e := .edge e) hpaths htarget rfl hname hbl hbh ht

def mixed : List Command :=
  [.createIndex "nodes" .ordered ["node.properties.p"], .createIndex "edges" .ordered ["edge.properties.p"],
    .addNode { id := "a", type := "T", properties := [("p", .float 4.5)] },
    .addNode { id := "b", type := "T", properties := [("p", .int 9007199254740993)] },
    .addNode { id := "c", type := "T", properties := [("p", .float 9007199254740992.0)] },
    .addNode { id := "d", type := "T", properties := [("p", .float (0.0 / 0.0))] },
    .addNode { id := "e", type := "T", properties := [("p", .float (-0.0))] },
    .addNode { id := "f", type := "T", properties := [("p", .float (1.0 / 0.0))] },
    .addNode { id := "g", type := "T", properties := [("p", .text "4")] },
    .addNode { id := "h", type := "T", properties := [("p", .bool true)] },
    .addNode { id := "i", type := "T", properties := [("p", .list [.int 4])] },
    .addNode { id := "j", type := "T", properties := [("p", .object [("p", .int 4)])] },
    .addNode { id := "k", type := "T" },
    .addNode { id := "l", type := "T", properties := [("p", .int (-1))] },
    .addNode { id := "m", type := "T", properties := [("p", .float (-1.5))] },
    .addEdge { id := "x", source := "a", target := "b", type := "R", properties := [("p", .text "w")] },
    .addEdge { id := "y", source := "a", target := "b", type := "R", properties := [("p", .text "u")] },
    .addEdge { id := "z", source := "b", target := "b", type := "R", properties := [("p", .int 5)] }]

theorem reachable_mixed : ((new "g" []).run mixed).Reachable :=
  (Reachable.start "g" fresh_nil).run mixed

theorem range_perm_scan_mixed :
    (∃ ns, ((new "g" []).run mixed).nodesInRange "nodes" (.int (-1)) (.int 9007199254740991) = .ok ns ∧
      ns.map (·.id) = ["l", "e", "a"] ∧
      ns.Perm (((new "g" []).run mixed).findNodes (Constraint.bounding "p" (.int (-1)) (.int 9007199254740991)))) ∧
    ∃ es, ((new "g" []).run mixed).edgesInRange "edges" (.text "u") (.text "z") = .ok es ∧
      es.map (·.id) = ["y", "x"] ∧
      es.Perm (((new "g" []).run mixed).findEdges (Constraint.bounding "p" (.text "u") (.text "z"))) := by
  have hindexes : ∀ name path, (((new "g" []).run mixed).index? name).map (fun i => (i.kind, i.paths)) =
      some (.ordered, [path]) → ∃ i, ((new "g" []).run mixed).index? name = some i ∧ i.kind = .ordered ∧
        i.paths = [path] := by
    intro name path h
    obtain ⟨i, hi, h⟩ := Option.map_eq_some_iff.mp h
    exact ⟨i, hi, Prod.mk.inj h⟩
  have hname : '.' ∉ "p".toList := by decide
  constructor
  · obtain ⟨i, hi, hkind, hpaths⟩ := hindexes "nodes" (.nodeProperty "p") (by decide +kernel)
    have hb : Value.Bounds (.int (-1)) (.int 9007199254740991) := .integers (by decide) (by decide)
    obtain ⟨ns, hns, hperm⟩ := (range_perm_scan reachable_mixed hi hkind hname hb rfl rfl).2.1 hpaths
    have hids : (((new "g" []).run mixed).nodesInRange "nodes" (.int (-1)) (.int 9007199254740991)).toOption.map
        (·.map (·.id)) = some ["l", "e", "a"] := by decide +kernel
    rw [hns] at hids
    exact ⟨ns, hns, Option.some.inj hids, hperm⟩
  · obtain ⟨i, hi, hkind, hpaths⟩ := hindexes "edges" (.edgeProperty "p") (by decide +kernel)
    have hb : Value.Bounds (.text "u") (.text "z") := .texts "u" "z"
    obtain ⟨es, hes, hperm⟩ := (range_perm_scan reachable_mixed hi hkind hname hb rfl rfl).2.2 hpaths
    have hids : (((new "g" []).run mixed).edgesInRange "edges" (.text "u") (.text "z")).toOption.map
        (·.map (·.id)) = some ["y", "x"] := by decide +kernel
    rw [hes] at hids
    exact ⟨es, hes, Option.some.inj hids, hperm⟩

end Store

end TriGraph
