import TriGraph.Proofs.Index.Range
import TriGraph.Proofs.Store.Lookup
import TriGraph.Proofs.Store.Replay

/-!
# Ranges of a store

An ordered index has seen every key of every entity that is stored now, since no edit takes a key back. So a range
finds every entity with a key between the bounds. A key that no entity has any more has no bucket.
-/

namespace TriGraph

namespace Index

/-! ## What a range is to find -/

structure LeastBetween (i : Index) (lo hi : Key) (e : Entity) (k : Key) : Prop where
  mem : k ∈ i.keysOf e
  lower : lo.atMost k = true
  upper : k.atMost hi = true
  least : ∀ l ∈ i.keysOf e, lo.atMost l = true → l.atMost hi = true → k.atMost l = true

def Ahead (i : Index) (lo hi : Key) (d e : Entity) : Prop :=
  ∃ k l, i.LeastBetween lo hi d k ∧ i.LeastBetween lo hi e l ∧ (compare k l).then (compare d.id e.id) = .lt

structure Ranges (i : Index) (lo hi : Key) (stored found : List Entity) : Prop where
  mem_iff : ∀ e, e ∈ found ↔ e ∈ stored ∧ ∃ k ∈ i.keysOf e, lo.atMost k = true ∧ k.atMost hi = true
  once : (found.map (·.id)).Nodup
  ordered : found.Pairwise (i.Ahead lo hi)

theorem exists_leastBetween {i : Index} {lo hi k : Key} {e : Entity} (hk : k ∈ i.keysOf e)
    (hb : Key.between lo hi k = true) : ∃ l, i.LeastBetween lo hi e l ∧ l.atMost k = true := by
  have hmem : k ∈ (i.keysOf e).filter (Key.between lo hi) := List.mem_filter.mpr ⟨hk, hb⟩
  obtain ⟨l, hl, hmin⟩ := Key.least_of_ne_nil (List.ne_nil_of_mem hmem)
  obtain ⟨hle, hlb⟩ := List.mem_filter.mp hl
  obtain ⟨hlower, hupper⟩ := Bool.and_eq_true_iff.mp hlb
  refine ⟨l, ⟨hle, hlower, hupper, fun j hj hj₁ hj₂ => hmin j ?_⟩, hmin k hmem⟩
  exact List.mem_filter.mpr ⟨hj, Bool.and_eq_true_iff.mpr ⟨hj₁, hj₂⟩⟩

theorem mem_seen_foldl_add {es : List Entity} {i : Index} {k : Key} :
    k ∈ (es.foldl add i).seen ↔ (∃ e ∈ es, k ∈ i.noted e) ∨ k ∈ i.seen := by
  induction es generalizing i with
  | nil => simp
  | cons e es ih =>
    have hnoted : (i.add e).noted = i.noted := noted_of_blank_eq (blank_add i e)
    rw [List.foldl_cons, ih, hnoted, seen_add, OrderedSet.mem_insertAll, List.exists_mem_cons_iff]
    exact or_left_comm.trans or_assoc.symm

end Index

namespace Store

/-! ## Keys that have been seen -/

def Overseen (s : Store) : Prop :=
  ∀ name i, s.index? name = some i → ∀ e, s.Contains e → ∀ k ∈ i.noted e, k ∈ i.seen

section
variable {s t : Store}

theorem Overseen.map (h : s.Overseen) {f : Index → Index} (ht : ∀ name, t.index? name = (s.index? name).map f)
    (hb : ∀ i, (f i).blank = i.blank) (hseen : ∀ i, ∀ k ∈ i.seen, k ∈ (f i).seen)
    (hf : ∀ i e, t.Contains e → s.Contains e ∨ ∀ k ∈ i.noted e, k ∈ (f i).seen) : t.Overseen := by
  intro name j hj e he k hk
  rw [ht, Option.map_eq_some_iff] at hj
  obtain ⟨i, hi, rfl⟩ := hj
  rw [Index.noted_of_blank_eq (hb i)] at hk
  rcases hf i e he with hold | hnew
  · exact hseen i k (h name i hi e hold k hk)
  · exact hnew k hk

theorem mem_seen_put {old : Option Entity} {e : Entity} {i : Index} {k : Index.Key} :
    k ∈ ((i.without old).add e).seen ↔ k ∈ i.noted e ∨ k ∈ i.seen := by
  rw [Index.seen_add, OrderedSet.mem_insertAll, seen_without, Index.noted_of_blank_eq (Index.blank_without old i)]

theorem Overseen.put (h : s.Overseen) {old : Option Entity} {e : Entity}
    (ht : ∀ name, t.index? name = (s.index? name).map fun i => (i.without old).add e)
    (hc : ∀ d, t.Contains d → d = e ∨ s.Contains d) : t.Overseen := by
  refine h.map ht (fun i => ?_) (fun i k hk => mem_seen_put.mpr (Or.inr hk)) fun i d hd => ?_
  · rw [Index.blank_add, Index.blank_without]
  · rcases hc d hd with rfl | hold
    · exact Or.inr fun k hk => mem_seen_put.mpr (Or.inl hk)
    · exact Or.inl hold

theorem Overseen.drop (h : s.Overseen) {e : Entity}
    (ht : ∀ name, t.index? name = (s.index? name).map (·.remove e)) (hc : ∀ d, t.Contains d → s.Contains d) :
    t.Overseen := by
  refine h.map ht (Index.blank_remove · e) (fun i k hk => ?_) fun i d hd => Or.inl (hc d hd)
  rw [Index.seen_remove]
  exact hk

theorem Overseen.edit (h : s.Overseen) (hl : s.Linked) (he : Edit s t) : t.Overseen := by
  cases he with
  | putNode n => exact h.put (index?_addNode n · s) fun d hd => ((contains_addNode hl n d).mp hd).imp_right And.left
  | @putEdge e _ _ =>
    exact h.put (index?_putEdge e · s) fun d hd => ((contains_putEdge hl e d).mp hd).imp_right And.left
  | @dropEdge e _ =>
    exact h.drop (index?_mapIndexes (·.remove (.edge e)) · _) fun d hd => ((contains_dropEdge hl e d).mp hd).1
  | @dropNode n _ _ =>
    exact h.drop (index?_mapIndexes (·.remove (.node n)) · _) fun d hd => ((contains_dropNode hl n d).mp hd).1
  | @addIndex new i kind paths hb =>
    intro name j hj e he k hk
    by_cases hn : name = new
    · rw [index?, hn, Catalog.get?_insert_self] at hj
      cases hj
      have hblank : (i.rebuilt (s.entities i.target)).blank = i.blank := Index.blank_foldl_add _ _
      rw [Index.noted_of_blank_eq hblank] at hk
      have hkind : e.kind = i.target := Index.kind_of_mem_noted hk
      exact Index.mem_seen_foldl_add.mpr (Or.inl ⟨e, (contains_iff_mem_entities_kind hkind).mp he, hk⟩)
    · rw [index?, Catalog.get?_insert_ne hn] at hj
      exact h name j hj e he k hk

theorem Overseen.edits (h : s.Overseen) (hl : s.Linked) (he : Edits s t) : t.Overseen := by
  induction he with
  | refl => exact h
  | tail hst he ih => exact ih.edit (hl.edits hst) he

theorem overseen_new (name : String) (indexes : List (String × Index)) : (new name indexes).Overseen := by
  intro _ _ _ e he
  cases e with
  | node n => exact absurd he List.not_mem_nil
  | edge e => exact absurd he List.not_mem_nil

theorem Reachable.overseen (h : s.Reachable) : s.Overseen := by
  induction h with
  | start name _ => exact overseen_new name _
  | step hr c ih => exact ih.edits hr.linked (hr.linked.edits_step c)

/-! ## Entities by id -/

def entity? (kind : EntityKind) (id : String) (s : Store) : Option Entity :=
  match kind with
  | .nodes => (s.node? id).map .node
  | .edges => (s.edge? id).map .edge

theorem entity?_eq_some (h : s.Linked) {kind : EntityKind} {id : String} {e : Entity} :
    s.entity? kind id = some e ↔ e ∈ s.entities kind ∧ e.id = id := by
  cases kind with
  | nodes =>
    simp only [entity?, entities, Option.map_eq_some_iff, node?, h.nodes.get?_eq_some, List.mem_map]
    constructor
    · rintro ⟨n, ⟨hn, hid⟩, rfl⟩
      exact ⟨⟨n, hn, rfl⟩, hid⟩
    · rintro ⟨⟨n, hn, rfl⟩, hid⟩
      exact ⟨n, ⟨hn, hid⟩, rfl⟩
  | edges =>
    simp only [entity?, entities, Option.map_eq_some_iff, edge?, h.edges.get?_eq_some, List.mem_map]
    constructor
    · rintro ⟨e, ⟨he, hid⟩, rfl⟩
      exact ⟨⟨e, he, rfl⟩, hid⟩
    · rintro ⟨⟨e, he, rfl⟩, hid⟩
      exact ⟨e, ⟨he, hid⟩, rfl⟩

theorem kind_of_mem_entities {kind : EntityKind} {e : Entity} (h : e ∈ s.entities kind) : e.kind = kind := by
  cases kind with
  | nodes => obtain ⟨n, -, rfl⟩ := List.mem_map.mp h; rfl
  | edges => obtain ⟨e, -, rfl⟩ := List.mem_map.mp h; rfl

/-! ## Ranges -/

section
variable {i : Index} (hl : s.Linked) (ha : s.Attached i)
include hl ha

theorem mem_lookup_iff {kind : EntityKind} {e : Entity} (he : e ∈ s.entities kind) {k : Index.Key} :
    e.id ∈ i.lookup kind k ↔ k ∈ i.keysOf e := by
  have hkind := kind_of_mem_entities he
  have hc : s.Contains e := (contains_iff_mem_entities_kind hkind).mpr he
  unfold Index.lookup
  by_cases ht : kind = i.target
  · rw [if_pos ht, mem_ids_iff hl ha hc (hkind.trans ht), Index.keysOf, if_pos (hkind.trans ht), List.mem_filterMap]
  · have hnone : k ∉ i.keysOf e := fun hk => ht (hkind.symm.trans (Index.kind_of_mem_keysOf hk))
    rw [if_neg ht]
    exact iff_of_false List.not_mem_nil hnone

variable (ho : i.kind = .ordered) (hsort : OrderedSet.Sorted i.seen)
  (hseen : ∀ e, s.Contains e → ∀ k ∈ i.noted e, k ∈ i.seen)
include ho hsort hseen

theorem mem_postings_iff {kind : EntityKind} {e : Entity} (he : e ∈ s.entities kind) {lo hi k : Index.Key} :
    (k, e.id) ∈ i.postings kind (i.keysBetween lo hi) ↔ k ∈ i.keysOf e ∧ Index.Key.between lo hi k = true := by
  have hc : s.Contains e := (contains_iff_mem_entities_kind (kind_of_mem_entities he)).mpr he
  have hnoted : i.noted e = i.keysOf e := by simp [Index.noted, ho]
  rw [Index.mem_postings, Index.keysBetween_eq_filter hsort, List.mem_filter, mem_lookup_iff hl ha he]
  constructor
  · rintro ⟨⟨-, hb⟩, hk⟩
    exact ⟨hk, hb⟩
  · rintro ⟨hk, hb⟩
    exact ⟨⟨hseen e hc k (hnoted ▸ hk), hb⟩, hk⟩

theorem ranges_filterMap (kind : EntityKind) (lo hi : Index.Key) :
    i.Ranges lo hi (s.entities kind)
      ((Index.distinct ((i.keysBetween lo hi).flatMap (i.lookup kind))).filterMap (s.entity? kind ·)) := by
  have hposting := @mem_postings_iff s i hl ha ho hsort hseen kind
  have hbetween : OrderedSet.Sorted (i.keysBetween lo hi) := by
    rw [Index.keysBetween_eq_filter hsort]
    exact hsort.filter _
  have hids : ∀ e ∈ s.entities kind, e.id ∈ (i.postings kind (i.keysBetween lo hi)).map Prod.snd ↔
      ∃ k ∈ i.keysOf e, Index.Key.between lo hi k = true := by
    intro e he
    rw [List.mem_map]
    constructor
    · rintro ⟨⟨k, id⟩, hp, rfl⟩
      exact ⟨k, (hposting he).mp hp⟩
    · rintro ⟨k, hk⟩
      exact ⟨(k, e.id), (hposting he).mpr hk, rfl⟩
  rw [← Index.map_postings]
  refine ⟨fun e => ?_, ?_, ?_⟩
  · simp only [List.mem_filterMap, Index.mem_distinct, entity?_eq_some hl]
    constructor
    · rintro ⟨id, hid, he, rfl⟩
      obtain ⟨k, hk, hb⟩ := (hids e he).mp hid
      exact ⟨he, k, hk, Bool.and_eq_true_iff.mp hb⟩
    · rintro ⟨he, k, hk, hb⟩
      exact ⟨e.id, (hids e he).mpr ⟨k, hk, Bool.and_eq_true_iff.mpr hb⟩, he, rfl⟩
  · refine List.pairwise_map.mpr (List.pairwise_filterMap.mpr ((Index.nodup_distinct _).imp fun hab d hd e he => ?_))
    rw [((entity?_eq_some hl).mp hd).2, ((entity?_eq_some hl).mp he).2]
    exact hab
  · have hpair := Index.pairwise_distinct (f := Prod.snd) (Index.pairwise_postings ha.records.canonical kind hbetween)
    refine List.pairwise_filterMap.mpr (hpair.imp_of_mem fun {a b} _ hb hab d hda e heb => ?_)
    obtain ⟨hd, rfl⟩ := (entity?_eq_some hl).mp hda
    obtain ⟨he, rfl⟩ := (entity?_eq_some hl).mp heb
    obtain ⟨⟨k, id⟩, hp, hid, hfirst⟩ := hab
    cases (hid : id = d.id)
    -- the first place of the one is ahead of all places of the other, in particular of its least
    obtain ⟨hk, hkb⟩ := (hposting hd).mp hp
    obtain ⟨m, hm, hmk⟩ := Index.exists_leastBetween hk hkb
    obtain ⟨l, hl', hlb⟩ := (hids e he).mp (Index.mem_distinct.mp hb)
    obtain ⟨n, hn, -⟩ := Index.exists_leastBetween hl' hlb
    have hposting' := (hposting he).mpr ⟨hn.mem, Bool.and_eq_true_iff.mpr ⟨hn.lower, hn.upper⟩⟩
    exact ⟨m, n, hm, hn, Index.Posting.lt_of_atMost (p := (k, d.id)) hmk (hfirst (n, e.id) hposting' rfl)⟩

end

theorem rangeIds_of_ordered {i : Index} {name : String} (hname : s.index? name = some i) (ho : i.kind = .ordered)
    (kind : EntityKind) (lo hi : Index.Key) :
    s.rangeIds name kind lo hi = .ok (Index.distinct ((i.keysBetween lo hi).flatMap (i.lookup kind))) := by
  have hr : i.range? kind lo hi = some (Index.distinct ((i.keysBetween lo hi).flatMap (i.lookup kind))) := by
    simp [Index.range?, ho]
  unfold rangeIds requireIndex
  rw [hname]
  simp only [bind, Except.bind, hr]
  rfl

/-- A range finds each entity with a key between the bounds just once, in the order of the least of these keys and
then of the ids. -/
theorem ranges_inRange (hs : s.Reachable) {name : String} {i : Index} (hname : s.index? name = some i)
    (ho : i.kind = .ordered) (lo hi : Index.Key) :
    (∃ ns, s.nodesInRange name lo hi = .ok ns ∧ i.Ranges lo hi (s.entities .nodes) (ns.map .node)) ∧
      ∃ es, s.edgesInRange name lo hi = .ok es ∧ i.Ranges lo hi (s.entities .edges) (es.map .edge) := by
  have hranges := ranges_filterMap hs.linked (hs.current name i hname) ho
    (hs.shelved.seen _ (Catalog.mem_of_get? hname)) (hs.overseen name i hname)
  constructor
  · refine ⟨(Index.distinct ((i.keysBetween lo hi).flatMap (i.lookup .nodes))).filterMap (s.node? ·), ?_, ?_⟩
    · unfold nodesInRange
      rw [rangeIds_of_ordered hname ho]
      rfl
    · rw [List.map_filterMap]
      exact hranges .nodes lo hi
  · refine ⟨(Index.distinct ((i.keysBetween lo hi).flatMap (i.lookup .edges))).filterMap (s.edge? ·), ?_, ?_⟩
    · unfold edgesInRange
      rw [rangeIds_of_ordered hname ho]
      rfl
    · rw [List.map_filterMap]
      exact hranges .edges lo hi

def dated : List Command :=
  [.createIndex "dates" .ordered ["node.properties.first", "node.properties.last"],
    .addNode { id := "d", type := "T", properties := [("first", .int 1), ("last", .int 9)] },
    .addNode { id := "c", type := "T", properties := [("first", .int 5), ("last", .int 3)] },
    .addNode { id := "b", type := "T", properties := [("first", .text "?"), ("last", .float 3.0)] },
    .addNode { id := "a", type := "T", properties := [("first", .int 2), ("last", .int 4)] },
    .setNodeProperty "a" "first" (.float 4.5),
    .addNode { id := "e", type := "T", properties := [("first", .bool true), ("last", .int 7)] },
    .addNode { id := "f", type := "T", properties := [("first", .int 3)] },
    .removeNode "f"]

theorem reachable_dated : ((new "g" []).run dated).Reachable :=
  (Reachable.start "g" fresh_nil).run dated

theorem ranges_inRange_dated :
    ∃ i, ((new "g" []).run dated).index? "dates" = some i ∧ i.kind = .ordered ∧
      i.keysBetween (.int 2) (.int 5) = [.int 2, .int 3, .int 4, .float 4.5, .int 5] ∧
      ∃ ns, ((new "g" []).run dated).nodesInRange "dates" (.int 2) (.int 5) = .ok ns ∧
        ns.map (·.id) = ["b", "c", "a"] ∧
        i.Ranges (.int 2) (.int 5) (((new "g" []).run dated).entities .nodes) (ns.map .node) := by
  have hname : ((new "g" []).run dated).index? "dates" = some _ := rfl
  obtain ⟨ns, hns, hr⟩ := (ranges_inRange reachable_dated hname rfl (.int 2) (.int 5)).1
  refine ⟨_, hname, rfl, by decide +kernel, ns, hns, ?_, hr⟩
  cases hns
  decide +kernel

end

end Store

end TriGraph
