import TriGraph.Proofs.Index.Agreement
import TriGraph.Proofs.Store.Upkeep

/-!
# Lookups and scans

The scan for the values under the paths of an index finds whatever the lookup finds; it finds more only where a value
and the value looked for are an integer and a float that become equal by rounding.
-/

namespace TriGraph

namespace Index

/-! ## What a path leads to -/

namespace Path

def value? : Path → Entity → Option Value
  | .nodeType, .node n => some (.text n.type)
  | .nodeProperty name, .node n => n.property? name
  | .edgeType, .edge e => some (.text e.type)
  | .edgeProperty name, .edge e => Catalog.get? name e.properties
  | _, _ => none

theorem key?_eq (p : Path) (e : Entity) : p.key? e = (p.value? e).bind Key.ofValue? := by
  cases p <;> cases e <;> rfl

/-- The path without the kind of entity, as a constraint writes it. -/
def subject : Path → String
  | .nodeType => "type"
  | .nodeProperty name => "properties." ++ name
  | .edgeType => "type"
  | .edgeProperty name => "properties." ++ name

/-- A dot in the name would lead a constraint deeper. -/
def isPlain : Path → Bool
  | .nodeProperty name => !name.toList.contains '.'
  | .edgeProperty name => !name.toList.contains '.'
  | _ => true

end Path

def scan (i : Index) (v : Value) : Constraint :=
  Constraint.withAny (i.paths.map fun p => Constraint.equals p.subject v []) []

/-- Wherever a path of the index leads to an equal value, it is equal by rounding only. -/
def EqualByRounding (i : Index) (v : Value) (e : Entity) : Prop :=
  ∀ p ∈ i.paths, ∀ u, p.value? e = some u → (u == v) = true → u.roundsTo v = true

end Index

/-! ## Scans -/

theorem splitDots_of_plain {cs : List Char} (h : '.' ∉ cs) : splitDots cs = [cs] := by
  induction cs with
  | nil => rfl
  | cons c cs ih =>
    obtain ⟨hc, hcs⟩ := List.ne_and_not_mem_of_not_mem_cons h
    rw [splitDots, if_neg (Ne.symm hc), ih hcs]

theorem splitDots_append {cs ds : List Char} (h : '.' ∉ cs) : splitDots (cs ++ '.' :: ds) = cs :: splitDots ds := by
  induction cs with
  | nil => rfl
  | cons c cs ih =>
    obtain ⟨hc, hcs⟩ := List.ne_and_not_mem_of_not_mem_cons h
    rw [List.cons_append, splitDots, if_neg (Ne.symm hc), ih hcs]

theorem ofKey_property {name : String} (h : '.' ∉ name.toList) (q : Predicate) :
    Clause.ofKey ("properties." ++ name) q = .path ["properties", name] q := by
  have hl : ("properties." ++ name).toList = "properties".toList ++ '.' :: name.toList := by
    rw [String.toList_append]
    rfl
  have hsplit : splitDots ("properties." ++ name).toList = ["properties".toList, name.toList] := by
    rw [hl, splitDots_append (by decide), splitDots_of_plain h]
  unfold Clause.ofKey
  rw [hsplit, if_pos (by rw [hl]; simp)]
  simp [String.ofList_toList]

section
variable {find : NodeLookup}

theorem holds_property {name : String} (h : '.' ∉ name.toList) {q : Predicate} {e : Entity} :
    (Clause.ofKey ("properties." ++ name) q).holds find e = true ↔
      ∃ u, Catalog.get? name e.properties = some u ∧ q.test u = true := by
  rw [ofKey_property h]
  simp only [Clause.holds, pathValue?, Place.walk?, Place.step?, Place.attribute?, Option.bind_some]
  cases Catalog.get? name e.properties with
  | none => simp [holdsAt]
  | some u => simp [holdsAt, Place.toValue]

theorem matches_equals {p : Index.Path} {v : Value} {e : Entity} (hp : p.isPlain = true) (ht : p.target = e.kind) :
    (Constraint.equals p.subject v []).matches find e = true ↔ ∃ u, p.value? e = some u ∧ (u == v) = true := by
  have hprop : ∀ name : String, '.' ∉ name.toList →
      ((Constraint.equals ("properties." ++ name) v []).matches find e = true ↔
        ∃ u, Catalog.get? name e.properties = some u ∧ (u == v) = true) := by
    intro name hname
    unfold Constraint.equals Constraint.test Constraint.matches
    simp only [List.nil_append, clausesHold, Bool.and_true, holds_property hname, Predicate.test]
  have htype : (Constraint.equals "type" v []).matches find e = true ↔
      ∃ u, some (Value.text e.type) = some u ∧ (u == v) = true := by
    have hk : Clause.ofKey "type" (.eq v) = .field "type" (.eq v) := rfl
    unfold Constraint.equals Constraint.test Constraint.matches
    rw [hk]
    simp [clausesHold, Clause.holds, fieldValue?, holdsAt, Predicate.test]
  cases p with
  | nodeType =>
    cases e with
    | node n => exact htype
    | edge e => cases ht
  | edgeType =>
    cases e with
    | node n => cases ht
    | edge e => exact htype
  | nodeProperty name =>
    cases e with
    | node n => exact hprop name (by simpa [Index.Path.isPlain] using hp)
    | edge e => cases ht
  | edgeProperty name =>
    cases e with
    | node n => cases ht
    | edge e => exact hprop name (by simpa [Index.Path.isPlain] using hp)

theorem matches_text {name text : String} (h : '.' ∉ name.toList) {n : Node} :
    (Constraint.equals ("properties." ++ name) (.text text) []).matches find (.node n) = true ↔
      n.property? name = some (.text text) := by
  refine (matches_equals (p := .nodeProperty name) (by simpa [Index.Path.isPlain] using h) rfl).trans ?_
  simp only [Value.beq_text]
  exact ⟨fun ⟨u, hu, ht⟩ => ht ▸ hu, fun ht => ⟨_, ht, rfl⟩⟩

theorem anyHolds_iff {subs : List Constraint} {e : Entity} :
    anyHolds find e subs = true ↔ ∃ c ∈ subs, c.matches find e = true := by
  induction subs with
  | nil => simp [anyHolds]
  | cons c subs ih =>
    rw [anyHolds, Bool.or_eq_true, ih, List.exists_mem_cons_iff]
    rfl

theorem matches_scan {i : Index} {v : Value} {e : Entity} (hp : ∀ p ∈ i.paths, p.isPlain = true)
    (ht : ∀ p ∈ i.paths, p.target = e.kind) :
    (i.scan v).matches find e = true ↔ ∃ p ∈ i.paths, ∃ u, p.value? e = some u ∧ (u == v) = true := by
  have h : (i.scan v).matches find e = anyHolds find e (i.paths.map fun p => Constraint.equals p.subject v []) := by
    simp [Index.scan, Constraint.withAny, Constraint.matches, clausesHold, Clause.holds]
  rw [h, anyHolds_iff]
  constructor
  · intro h'
    obtain ⟨c, hc, hm⟩ := h'
    obtain ⟨p, hpi, rfl⟩ := List.mem_map.mp hc
    exact ⟨p, hpi, (matches_equals (hp p hpi) (ht p hpi)).mp hm⟩
  · intro h'
    obtain ⟨p, hpi, hu⟩ := h'
    exact ⟨_, List.mem_map.mpr ⟨p, hpi, rfl⟩, (matches_equals (hp p hpi) (ht p hpi)).mpr hu⟩

end

namespace Store

/-! ## Lookups -/

theorem Attached.target_of_mem {s : Store} {i : Index} (h : s.Attached i) {p : Index.Path} (hp : p ∈ i.paths) :
    p.target = i.target :=
  (Index.build_eq_ok h.built).2.2 p hp

theorem Linked.eq_of_id_eq {s : Store} (h : s.Linked) {d e : Entity} (hd : s.Contains d) (he : s.Contains e)
    (hk : d.kind = e.kind) (hid : d.id = e.id) : d = e := by
  cases d with
  | node m =>
    cases e with
    | node n => rw [h.nodes.eq_of_key_eq hd he hid]
    | edge f => cases hk
  | edge f =>
    cases e with
    | node n => cases hk
    | edge g => rw [h.edges.eq_of_key_eq hd he hid]

section
variable {s : Store} {i : Index} (hl : s.Linked) (ha : s.Attached i)
include hl ha

theorem mem_ids_iff {k : Index.Key} {d : Entity} (hd : s.Contains d) (hk : d.kind = i.target) :
    d.id ∈ i.buckets.ids k ↔ ∃ p ∈ i.paths, p.key? d = some k := by
  have hkeys : k ∈ i.keysOf d ↔ ∃ p ∈ i.paths, p.key? d = some k := by
    rw [Index.keysOf, if_pos hk, List.mem_filterMap]
  rw [ha.records.mem_ids, ← hkeys]
  constructor
  · intro h'
    obtain ⟨e, he, hid, hke⟩ := h'
    have hkind : e.kind = d.kind := (Index.kind_of_mem_keysOf hke).trans hk.symm
    rw [← hl.eq_of_id_eq he hd hkind hid]
    exact hke
  · intro hkd
    exact ⟨d, hd, rfl, hkd⟩

variable {v : Value} {k : Index.Key} (hk : Index.Key.ofValue? v = some k) (hv : v.isNaN = false)
  (hp : ∀ p ∈ i.paths, p.isPlain = true)
include hk hv hp

theorem mem_ids_iff_matches {d : Entity} (hd : s.Contains d) (ht : d.kind = i.target) :
    d.id ∈ i.buckets.ids k ↔ s.holds (i.scan v) d = true ∧ ¬i.EqualByRounding v d := by
  have htp : ∀ p ∈ i.paths, p.target = d.kind := fun p hpi => (ha.target_of_mem hpi).trans ht.symm
  rw [mem_ids_iff hl ha hd ht, holds, matches_scan hp htp]
  simp only [Index.Path.key?_eq, Option.bind_eq_some_iff, Index.Key.ofValue?_eq_some_iff hk hv]
  constructor
  · intro h'
    obtain ⟨p, hpi, u, hu, heq, hr⟩ := h'
    refine ⟨⟨p, hpi, u, hu, heq⟩, fun h => ?_⟩
    have := h p hpi u hu heq
    rw [hr] at this
    cases this
  · intro h'
    obtain ⟨-, hr⟩ := h'
    unfold Index.EqualByRounding at hr
    simp only [not_forall] at hr
    obtain ⟨p, hpi, u, hu, heq, hne⟩ := hr
    exact ⟨p, hpi, u, hu, heq, Bool.eq_false_of_not_eq_true hne⟩

theorem mem_filterMap_ids {α : Type} {key : α → String} {t : Table α} (htab : t.Keyed key) {f : α → Entity}
    (hmem : ∀ x, x ∈ t.values → s.Contains (f x)) (hid : ∀ x, (f x).id = key x)
    (hkind : ∀ x, (f x).kind = i.target) {x : α} :
    x ∈ (i.buckets.ids k).filterMap (t.get? ·) ↔
      x ∈ t.values.filter (fun x => s.holds (i.scan v) (f x)) ∧ ¬i.EqualByRounding v (f x) := by
  have hbucket : x ∈ t.values →
      (key x ∈ i.buckets.ids k ↔ s.holds (i.scan v) (f x) = true ∧ ¬i.EqualByRounding v (f x)) := by
    intro hx
    rw [← hid x]
    exact mem_ids_iff_matches hl ha hk hv hp (hmem x hx) (hkind x)
  rw [List.mem_filterMap, List.mem_filter]
  constructor
  · intro h'
    obtain ⟨id, hin, hget⟩ := h'
    obtain ⟨hx, rfl⟩ := htab.get?_eq_some.mp hget
    obtain ⟨hs, hr⟩ := (hbucket hx).mp hin
    exact ⟨⟨hx, hs⟩, hr⟩
  · intro h'
    obtain ⟨⟨hx, hs⟩, hr⟩ := h'
    exact ⟨key x, (hbucket hx).mpr ⟨hs, hr⟩, htab.get?_of_mem hx⟩

theorem mem_nodesByIndex {name : String} (hi : s.index? name = some i) (ht : i.target = .nodes) :
    ∃ ns, s.nodesByIndex name k = .ok ns ∧
      ∀ n, n ∈ ns ↔ n ∈ s.findNodes (i.scan v) ∧ ¬i.EqualByRounding v (.node n) := by
  refine ⟨(i.buckets.ids k).filterMap (s.node? ·), ?_, fun n => ?_⟩
  · have hids : i.lookup .nodes k = i.buckets.ids k := if_pos ht.symm
    unfold nodesByIndex requireIndex
    rw [hi, ← hids]
    rfl
  · exact mem_filterMap_ids hl ha hk hv hp hl.nodes (f := .node) (fun _ hn => hn) (fun _ => rfl) fun _ => ht.symm

theorem mem_edgesByIndex {name : String} (hi : s.index? name = some i) (ht : i.target = .edges) :
    ∃ es, s.edgesByIndex name k = .ok es ∧
      ∀ e, e ∈ es ↔ e ∈ s.findEdges (i.scan v) ∧ ¬i.EqualByRounding v (.edge e) := by
  refine ⟨(i.buckets.ids k).filterMap (s.edge? ·), ?_, fun e => ?_⟩
  · have hids : i.lookup .edges k = i.buckets.ids k := if_pos ht.symm
    unfold edgesByIndex requireIndex
    rw [hi, ← hids]
    rfl
  · exact mem_filterMap_ids hl ha hk hv hp hl.edges (f := .edge) (fun _ he => he) (fun _ => rfl) fun _ => ht.symm

end

/-! ## Agreement -/

theorem agree_iff {α : Type} {found scanned : List α} {rounded : α → Prop}
    (h : ∀ x, x ∈ found ↔ x ∈ scanned ∧ ¬rounded x) :
    (∀ x, x ∈ found ↔ x ∈ scanned) ↔ ∀ x ∈ scanned, ¬rounded x := by
  constructor
  · intro hx x hs
    exact ((h x).mp ((hx x).mpr hs)).2
  · intro hr x
    rw [h]
    exact ⟨fun hx => hx.1, fun hs => ⟨hs, hr x hs⟩⟩

/-- A lookup finds what the scan finds just when the scan finds nothing by rounding only. -/
theorem lookup_eq_scan_iff {s : Store} (hs : s.Reachable) {name : String} {i : Index} (hi : s.index? name = some i)
    (hp : ∀ p ∈ i.paths, p.isPlain = true) {v : Value} {k : Index.Key} (hk : Index.Key.ofValue? v = some k)
    (hv : v.isNaN = false) :
    (i.target = .nodes → ∃ ns, s.nodesByIndex name k = .ok ns ∧
      (∀ n ∈ ns, n ∈ s.findNodes (i.scan v)) ∧
      ((∀ n, n ∈ ns ↔ n ∈ s.findNodes (i.scan v)) ↔
        ∀ n ∈ s.findNodes (i.scan v), ¬i.EqualByRounding v (.node n))) ∧
    (i.target = .edges → ∃ es, s.edgesByIndex name k = .ok es ∧
      (∀ e ∈ es, e ∈ s.findEdges (i.scan v)) ∧
      ((∀ e, e ∈ es ↔ e ∈ s.findEdges (i.scan v)) ↔
        ∀ e ∈ s.findEdges (i.scan v), ¬i.EqualByRounding v (.edge e))) := by
  have hl := hs.linked
  have ha := hs.current name i hi
  refine ⟨fun ht => ?_, fun ht => ?_⟩
  · obtain ⟨ns, hns, hmem⟩ := mem_nodesByIndex hl ha hk hv hp hi ht
    exact ⟨ns, hns, fun n hn => ((hmem n).mp hn).1, agree_iff hmem⟩
  · obtain ⟨es, hes, hmem⟩ := mem_edgesByIndex hl ha hk hv hp hi ht
    exact ⟨es, hes, fun e he => ((hmem e).mp he).1, agree_iff hmem⟩

def numbers : List Command :=
  [.createIndex "by" .hash ["node.type", "node.properties.p"],
    .addNode { id := "a", type := "T", properties := [("p", .int 9007199254740993)] },
    .addNode { id := "b", type := "T", properties := [("p", .int 1)] },
    .addNode { id := "c", type := "T", properties := [("p", .float 1.0)] }]

theorem reachable_numbers : ((new "g" []).run numbers).Reachable :=
  (Reachable.start "g" fresh_nil).run numbers

theorem lookup_eq_scan_numbers :
    ∃ i, ((new "g" []).run numbers).index? "by" = some i ∧
      ∃ ns, ((new "g" []).run numbers).nodesByIndex "by" (.int 1) = .ok ns ∧
        (∀ n ∈ ns, n ∈ ((new "g" []).run numbers).findNodes (i.scan (.float 1.0))) ∧
        ((∀ n, n ∈ ns ↔ n ∈ ((new "g" []).run numbers).findNodes (i.scan (.float 1.0))) ↔
          ∀ n ∈ ((new "g" []).run numbers).findNodes (i.scan (.float 1.0)),
            ¬i.EqualByRounding (.float 1.0) (.node n)) :=
  ⟨_, rfl, (lookup_eq_scan_iff reachable_numbers (show ((new "g" []).run numbers).index? "by" = some _ from rfl)
    (by decide +kernel) (v := .float 1.0) rfl (by decide +kernel)).1 rfl⟩

/-- The scan takes 2^53 + 1 for the float 2^53, the lookup does not. -/
theorem lookup_ne_scan :
    ((new "g" []).run numbers).Reachable ∧
    ∃ i, ((new "g" []).run numbers).index? "by" = some i ∧ i.target = .nodes ∧ (∀ p ∈ i.paths, p.isPlain = true) ∧
      Index.Key.ofValue? (.float 9007199254740992.0) = some (.int 9007199254740992) ∧
      ((new "g" []).run numbers).nodesByIndex "by" (.int 9007199254740992) = .ok [] ∧
      (((new "g" []).run numbers).findNodes (i.scan (.float 9007199254740992.0))).map (·.id) = ["a"] :=
  ⟨reachable_numbers, _, rfl, rfl, by decide +kernel, by decide +kernel, rfl, by decide +kernel⟩

/-! ## Exact values -/

theorem not_equalByRounding {find : NodeLookup} {i : Index} {v : Value} {e : Entity} (hx : v.isExact = true)
    (hp : ∀ p ∈ i.paths, p.isPlain = true) (ht : ∀ p ∈ i.paths, p.target = e.kind)
    (hm : (i.scan v).matches find e = true) : ¬i.EqualByRounding v e := by
  obtain ⟨p, hpi, u, hu, heq⟩ := (matches_scan hp ht).mp hm
  intro h
  have := h p hpi u hu heq
  rw [Value.roundsTo_eq_false hx] at this
  cases this

theorem lookup_eq_scan_of_exact {s : Store} (hs : s.Reachable) {name : String} {i : Index}
    (hi : s.index? name = some i) (hp : ∀ p ∈ i.paths, p.isPlain = true) {v : Value} {k : Index.Key}
    (hk : Index.Key.ofValue? v = some k) (hv : v.isNaN = false) (hx : v.isExact = true) :
    (i.target = .nodes → ∃ ns, s.nodesByIndex name k = .ok ns ∧ ∀ n, n ∈ ns ↔ n ∈ s.findNodes (i.scan v)) ∧
    (i.target = .edges → ∃ es, s.edgesByIndex name k = .ok es ∧ ∀ e, e ∈ es ↔ e ∈ s.findEdges (i.scan v)) := by
  have hl := hs.linked
  have ha := hs.current name i hi
  refine ⟨fun ht => ?_, fun ht => ?_⟩
  · obtain ⟨ns, hns, hmem⟩ := mem_nodesByIndex hl ha hk hv hp hi ht
    refine ⟨ns, hns, (agree_iff hmem).mpr fun n hn => ?_⟩
    exact not_equalByRounding hx hp (fun p hpi => (ha.target_of_mem hpi).trans ht) (List.mem_filter.mp hn).2
  · obtain ⟨es, hes, hmem⟩ := mem_edgesByIndex hl ha hk hv hp hi ht
    refine ⟨es, hes, (agree_iff hmem).mpr fun e he => ?_⟩
    exact not_equalByRounding hx hp (fun p hpi => (ha.target_of_mem hpi).trans ht) (List.mem_filter.mp he).2

end Store

end TriGraph
