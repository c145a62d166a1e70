import TriGraph.Proofs.Index.Range
import TriGraph.Proofs.Knowledge.Listings
import TriGraph.Proofs.Seed.Steps
import TriGraph.Proofs.Store.Lookup

/-!
# Entities over a history

Only one kind of call adds nodes to the instance layer, and none takes nodes away, so this layer holds of every entity
that was ever created the latest version, in the order of the first ones.
-/

namespace TriGraph

/-! ## Calls -/

namespace Trinity

/-- A relation without an id of its own gets the given one, and an index may be asked for in a layer that there is
not. -/
inductive Call where
  | concept (i : Seed.ConceptItem)
  | relationType (i : Seed.RelationTypeItem)
  | context (i : Seed.ContextItem)
  | contextRelation (i : Seed.ContextRelationItem)
  | entity (i : Seed.EntityItem)
  | relation (fresh : String) (i : Seed.RelationItem)
  | index (graph name : String) (kind : Index.Kind) (paths : List String)

namespace Call

def step : Call → Seed.Step
  | .concept i => i.step
  | .relationType i => i.step
  | .context i => i.step
  | .contextRelation i => i.step
  | .entity i => i.step
  | .relation fresh i => i.step fresh
  | .index graph name kind paths => createIndex graph name kind paths

def entity? : Call → Option Seed.EntityItem
  | .entity i => some i
  | _ => none

end Call

def performed : List Call → Trinity → List Call
  | [], _ => []
  | c :: cs, t =>
    match c.step t with
    | .ok u => c :: performed cs u
    | .error _ => []

end Trinity

namespace Seed

def calls (fresh : Nat → String) (s : Seed) : List Trinity.Call :=
  s.concepts.map .concept
    ++ s.relationTypes.map .relationType
    ++ s.contexts.map .context
    ++ s.contextRelations.map .contextRelation
    ++ s.entities.map .entity
    ++ s.relations.zipIdx.map (fun (i, n) => .relation (fresh n) i)
    ++ s.indexes.map fun i => .index i.layer.name i.name i.kind i.paths

theorem steps_eq_map_calls (fresh : Nat → String) (s : Seed) :
    s.steps fresh = (s.calls fresh).map Trinity.Call.step := by
  simp only [steps, calls, List.map_append, List.map_map]
  rfl

def EntityItem.node (i : EntityItem) : Node :=
  Instances.entity i.id i.concept i.properties

def latest? (id : String) (is : List EntityItem) : Option EntityItem :=
  is.reverse.find? (·.id == id)

end Seed

/-! ## Histories -/

namespace Trinity

inductive Action where
  | call (c : Call)
  | seed (fresh : Nat → String) (s : Seed)
  | refresh

def Action.calls : Action → List Call
  | .call c => [c]
  | .seed fresh s => s.calls fresh
  | .refresh => []

/-- A call that fails leaves the trinity as it was, and a seed that fails leaves what came before the failure. -/
def act (t : Trinity) : Action → Trinity
  | .call c => (c.step t).toOption.getD t
  | .seed fresh s => (s.apply fresh t).1
  | .refresh => t.refresh

def actAll (t : Trinity) (as : List Action) : Trinity :=
  as.foldl act t

def created (t : Trinity) : List Action → List Seed.EntityItem
  | [] => []
  | a :: as => (performed a.calls t).filterMap Call.entity? ++ (t.act a).created as

theorem graphs_act (t : Trinity) (a : Action) :
    (t.act a).graphs = (Seed.takeSteps (a.calls.map Call.step) t).1.graphs := by
  cases a with
  | call c =>
    change ((c.step t).toOption.getD t).graphs = (Seed.takeSteps [c.step] t).1.graphs
    unfold Seed.takeSteps
    cases c.step t with
    | error e => rfl
    | ok u => rfl
  | seed fresh s =>
    change (s.apply fresh t).1.graphs = (Seed.takeSteps ((s.calls fresh).map Call.step) t).1.graphs
    rw [← Seed.steps_eq_map_calls]
    unfold Seed.apply
    obtain ⟨u, _ | e⟩ := Seed.takeSteps (s.steps fresh) t
    · rfl
    · rfl
  | refresh => rfl

/-! ## The instance layer -/

structure Holding (s : Store) (is : List Seed.EntityItem) : Prop where
  linked : s.Linked
  current : s.Current
  nodes : s.nodes = ({} : Table Node).putAll Node.id (is.map Seed.EntityItem.node)
  index : ∃ i, s.index? "entity_type" = some i ∧ i.blank = Index.new .hash .nodes [.nodeProperty Instances.conceptId]

namespace Holding

variable {s u : Store} {is js : List Seed.EntityItem}

theorem new : Holding Instances.new [] :=
  ⟨Instances.reachable_new.linked, Instances.reachable_new.current, rfl, _, rfl, rfl⟩

theorem putAll (h : Holding s is) {ws : List Store.Write} (hf : s.Fits ws)
    (hjs : ws.filterMap Store.Write.node? = js.map Seed.EntityItem.node) : Holding (s.putAll ws) (is ++ js) := by
  refine ⟨h.linked.edits hf.edits, h.current.edits h.linked hf.edits, ?_, ?_⟩
  · rw [Store.nodes_putAll, h.nodes, hjs, List.map_append]
    exact (List.foldl_append ..).symm
  · obtain ⟨i, hi, hb⟩ := h.index
    obtain ⟨f, hmap, hblank⟩ := Store.indexes_putAll s ws
    refine ⟨f i, ?_, (hblank i).1.trans hb⟩
    rw [Store.index?, hmap, Catalog.get?_map]
    exact congrArg (Option.map f) hi

theorem createIndex (h : Holding s is) {name : String} {kind : Index.Kind} {paths : List String}
    (hu : s.createIndex name kind paths = .ok u) : Holding u is := by
  have hedit := s.edits_createIndex name kind paths
  rw [hu] at hedit
  obtain ⟨hnew, i, -, rfl⟩ := Store.createIndex_eq_ok hu
  refine ⟨h.linked.edits hedit, h.current.edits h.linked hedit, h.nodes, ?_⟩
  obtain ⟨j, hj, hb⟩ := h.index
  have hname : "entity_type" ≠ name := by
    rintro rfl
    rw [Catalog.contains, show Catalog.get? "entity_type" s.indexes = some j from hj] at hnew
    cases hnew
  exact ⟨j, (Catalog.get?_insert_ne hname).trans hj, hb⟩

end Holding

/-! ## Calls and the instance layer -/

theorem describes_step (c : Call) :
    (∃ x : Effect, x.Describes c.step ∧
      (x.writesTo .instances).filterMap Store.Write.node? = c.entity?.toList.map Seed.EntityItem.node) ∨
    ∃ graph name kind paths, c = .index graph name kind paths := by
  cases c with
  | concept i => exact Or.inl ⟨_, Effect.describes_createConcept i.id i.properties i.parents, rfl⟩
  | relationType i => exact Or.inl ⟨_, Effect.describes_createRelationType i.id i.properties i.domain i.range, rfl⟩
  | context i => exact Or.inl ⟨_, Effect.describes_addNode .contexts (Contexts.context i.id i.kind i.properties), rfl⟩
  | contextRelation i =>
    exact Or.inl ⟨_, Effect.describes_addEdge .contexts (Contexts.relation i.source i.target i.type i.properties), rfl⟩
  | entity i => exact Or.inl ⟨_, Effect.describes_addNode .instances i.node, rfl⟩
  | relation fresh i =>
    exact Or.inl ⟨_, Effect.describes_addEdge .instances
      (Instances.relation (i.id.getD fresh) i.source i.type i.target i.properties), rfl⟩
  | index graph name kind paths => exact Or.inr ⟨graph, name, kind, paths, rfl⟩

section
variable {t u : Trinity} {is : List Seed.EntityItem}

theorem store_of_createIndex {graph name : String} {kind : Index.Kind} {paths : List String}
    (h : t.createIndex graph name kind paths = .ok u) (l : Layer) :
    u.graphs.store l = t.graphs.store l ∨ (t.graphs.store l).createIndex name kind paths = .ok (u.graphs.store l) := by
  unfold Trinity.createIndex at h
  cases hl : Knowledge.layer graph with
  | error e => rw [hl] at h; cases h
  | ok l' =>
    rw [hl] at h
    simp only [bind, Except.bind] at h
    split at h
    · rename_i s hs
      cases h
      rw [show (t.setStore l' s).graphs.store l = _ from Graphs.store_setStore l' l s t.graphs]
      by_cases hll : l' = l
      · subst hll
        rw [if_pos rfl]
        exact Or.inr hs
      · rw [if_neg hll]
        exact Or.inl rfl
    · cases h

theorem holding_step (h : Holding t.graphs.instances is) {c : Call} (hu : c.step t = .ok u) :
    Holding u.graphs.instances (is ++ c.entity?.toList) := by
  rcases describes_step c with ⟨x, hx, hnodes⟩ | ⟨graph, name, kind, paths, rfl⟩
  · obtain ⟨hready, rfl⟩ := (hx.ok_iff t u).mp hu
    have hstore : (t.take x).graphs.instances = t.graphs.instances.putAll (x.writesTo .instances) :=
      store_take x t .instances
    rw [hstore]
    exact h.putAll (hx.sound.fits hready .instances) hnodes
  · refine (List.append_nil is).symm ▸ ?_
    rcases store_of_createIndex hu .instances with hsame | hnew
    · rw [show u.graphs.instances = t.graphs.instances from hsame]
      exact h
    · exact h.createIndex hnew

theorem holding_takeSteps (h : Holding t.graphs.instances is) (cs : List Call) :
    Holding (Seed.takeSteps (cs.map Call.step) t).1.graphs.instances
      (is ++ (performed cs t).filterMap Call.entity?) := by
  induction cs generalizing t is with
  | nil => exact (List.append_nil is).symm ▸ h
  | cons c cs ih =>
    rw [List.map_cons, Seed.takeSteps, performed]
    cases hu : c.step t with
    | error e => exact (List.append_nil is).symm ▸ h
    | ok u =>
      have hcons : (c :: performed cs u).filterMap Call.entity? =
          c.entity?.toList ++ (performed cs u).filterMap Call.entity? := by
        rw [List.filterMap_cons]
        cases c.entity? with
        | none => rfl
        | some i => rfl
      have ih := ih (holding_step h hu)
      rw [List.append_assoc, ← hcons] at ih
      exact ih

theorem holding_actAll (h : Holding t.graphs.instances is) (as : List Action) :
    Holding (t.actAll as).graphs.instances (is ++ t.created as) := by
  induction as generalizing t is with
  | nil => exact (List.append_nil is).symm ▸ h
  | cons a as ih =>
    have hact : Holding (t.act a).graphs.instances (is ++ (performed a.calls t).filterMap Call.entity?) := by
      rw [graphs_act]
      exact holding_takeSteps h a.calls
    rw [created, ← List.append_assoc]
    exact ih hact

end

/-! ## Entities of a concept -/

def conceptOf? (id : String) (is : List Seed.EntityItem) : Option String :=
  (Seed.latest? id is).map (·.concept)

namespace Holding

variable {s : Store} {is : List Seed.EntityItem} (h : Holding s is)
include h

theorem mem_allNodes_iff {n : Node} :
    n ∈ s.allNodes ↔ (Seed.latest? n.id is).map Seed.EntityItem.node = some n := by
  have hlatest : (is.map Seed.EntityItem.node).reverse.find? (Node.id · == n.id) =
      (Seed.latest? n.id is).map Seed.EntityItem.node := by
    rw [← List.map_reverse, List.find?_map]
    rfl
  rw [← hlatest, Store.allNodes, h.nodes]
  exact Table.Keyed.mem_values_putAll_empty

theorem exists_concept_iff {id c : String} :
    (∃ n ∈ s.allNodes, n.id = id ∧ n.property? Instances.conceptId = some (.text c)) ↔ conceptOf? id is = some c := by
  have hconcept : ∀ i : Seed.EntityItem, i.node.property? Instances.conceptId = some (.text i.concept) :=
    fun i => Catalog.get?_insert_self
  unfold conceptOf?
  rw [Option.map_eq_some_iff]
  constructor
  · rintro ⟨n, hn, rfl, hc⟩
    obtain ⟨i, hi, rfl⟩ := Option.map_eq_some_iff.mp (h.mem_allNodes_iff.mp hn)
    rw [hconcept, Option.some.injEq, Value.text.injEq] at hc
    exact ⟨i, hi, hc⟩
  · rintro ⟨i, hi, rfl⟩
    have hid : i.id = id := beq_iff_eq.mp (List.find?_some (p := fun j : Seed.EntityItem => j.id == id) hi)
    refine ⟨i.node, h.mem_allNodes_iff.mpr ?_, hid, hconcept i⟩
    rw [show i.node.id = id from hid, hi]
    rfl

theorem mem_ofConcept {id c : String} :
    id ∈ (Instances.ofConcept c s).map (·.id) ↔ conceptOf? id is = some c := by
  have hplain : '.' ∉ Instances.conceptId.toList := by decide
  have hholds : ∀ n : Node, s.holds (Constraint.equals "properties.conceptId" (.text c) []) (.node n) = true ↔
      n.property? Instances.conceptId = some (.text c) :=
    fun _ => matches_text hplain
  rw [← h.exists_concept_iff, List.mem_map]
  simp only [Instances.ofConcept, Store.findNodes, List.mem_filter, hholds, and_assoc]
  exact exists_congr fun n => and_congr_right fun _ => and_comm

theorem mem_lookup {x : Index} (hx : s.index? "entity_type" = some x) {id c : String} :
    id ∈ x.lookup .nodes (.text c) ↔ conceptOf? id is = some c := by
  obtain ⟨y, hy, hb⟩ := h.index
  cases Option.some.inj (hx.symm.trans hy)
  have htarget : x.target = .nodes := congrArg Index.target hb
  have hpaths : x.paths = [.nodeProperty Instances.conceptId] := congrArg Index.paths hb
  have hkeys : ∀ n : Node, .text c ∈ x.keysOf (.node n) ↔ n.property? Instances.conceptId = some (.text c) := by
    intro n
    have hkind : (Entity.node n).kind = .nodes := rfl
    rw [Index.keysOf, htarget, hpaths, if_pos hkind]
    simp [Index.Path.key?_eq, Index.Path.value?, Option.bind_eq_some_iff, Index.Key.ofValue?_eq_text]
  rw [← h.exists_concept_iff, Index.lookup, if_pos htarget.symm, (h.current _ x hx).records.mem_ids]
  constructor
  · rintro ⟨n | e, hn, hid, hk⟩
    · exact ⟨n, hn, hid, (hkeys n).mp hk⟩
    · cases (Index.kind_of_mem_keysOf hk).trans htarget
  · rintro ⟨n, hn, hid, hk⟩
    exact ⟨.node n, hn, hid, (hkeys n).mpr hk⟩

theorem map_id_allNodes : s.allNodes.map (·.id) = Index.distinct (is.map (·.id)) := by
  rw [Store.allNodes, h.nodes]
  refine (Table.Keyed.empty.map_key_values_putAll _).trans ?_
  rw [List.map_map]
  rfl

theorem sublist_ofConcept (c : String) :
    ((Instances.ofConcept c s).map (·.id)).Sublist (Index.distinct (is.map (·.id))) := by
  rw [← h.map_id_allNodes]
  exact List.filter_sublist.map _

end Holding

/-- The entities of a concept, each once, in the order in which the ids have first come, with the same ids in the
index. -/
structure Roll (t : Trinity) (is : List Seed.EntityItem) (concept : String) (ids : List String) : Prop where
  listed : t.Lists concept none ids
  mem_iff : ∀ id, id ∈ ids ↔ conceptOf? id is = some concept
  once : ids.Nodup
  ordered : ids.Sublist (Index.distinct (is.map (·.id)))
  indexed : ∃ x, t.graphs.instances.index? "entity_type" = some x ∧ (x.lookup .nodes (.text concept)).Perm ids

theorem Holding.roll {t : Trinity} {is : List Seed.EntityItem} (h : Holding t.graphs.instances is) (c : String) :
    t.Roll is c ((Instances.ofConcept c t.graphs.instances).map (·.id)) := by
  have honce : ((Instances.ofConcept c t.graphs.instances).map (·.id)).Nodup :=
    h.linked.nodes.distinct.sublist (List.filter_sublist.map _)
  obtain ⟨x, hx, -⟩ := h.index
  have hids : (x.lookup .nodes (.text c)).Nodup :=
    (Index.sorted_lookup (h.current _ x hx).records.canonical .nodes (.text c)).nodup
  refine ⟨⟨_, rfl, rfl⟩, fun id => h.mem_ofConcept, honce, h.sublist_ofConcept c, x, hx, ?_⟩
  refine (List.perm_ext_iff_of_nodup hids honce).mpr fun id => ?_
  rw [h.mem_lookup hx, h.mem_ofConcept]

theorem exists_latest {i : Seed.EntityItem} {is : List Seed.EntityItem} (hi : i ∈ is) :
    ∃ j, Seed.latest? i.id is = some j :=
  Option.isSome_iff_exists.mp (List.find?_isSome.mpr ⟨i, List.mem_reverse.mpr hi, beq_self_eq_true i.id⟩)

/-- Every entity that was ever created is in the list of just one concept, the one that its latest call has named. -/
theorem concepts_of_created (name : String) (as : List Action) :
    (∀ i ∈ (new name).created as, ∃ j, Seed.latest? i.id ((new name).created as) = some j ∧
        ∀ c ids, ((new name).actAll as).Lists c none ids → (i.id ∈ ids ↔ c = j.concept)) ∧
      ∀ c, ∃ ids, ((new name).actAll as).Roll ((new name).created as) c ids := by
  have hnew : Holding (new name).graphs.instances [] := Holding.new
  have h : Holding ((new name).actAll as).graphs.instances ((new name).created as) := holding_actAll hnew as
  refine ⟨fun i hi => ?_, fun c => ⟨_, h.roll c⟩⟩
  obtain ⟨j, hj⟩ := exists_latest hi
  refine ⟨j, hj, fun c ids hids => ?_⟩
  rw [hids.unique (h.roll c).listed, (h.roll c).mem_iff, conceptOf?, hj, Option.map_some, Option.some.injEq, eq_comm]

def moves : List Action :=
  [.call (.entity ⟨"hamlet", "Author", [("conceptId", .text "Play")]⟩),
    .call (.index "instance" "by_concept" .ordered ["node.properties.conceptId"]),
    .seed toString
      { entities := [⟨"cervantes", "Author", []⟩, ⟨"quixote", "Book", []⟩]
        relations := [{ source := "shakespeare", type := "wrote", target := "hamlet" },
          { source := "cervantes", type := "wrote", target := "quixote" }] },
    .call (.entity ⟨"shakespeare", "Author", []⟩),
    .call (.entity ⟨"hamlet", "Book", [("conceptId", .text "Play")]⟩),
    .refresh]

theorem concepts_of_created_moves :
    ((new "Library").actAll moves).Roll ((new "Library").created moves) "Author" ["cervantes", "shakespeare"] ∧
      ((new "Library").actAll moves).Roll ((new "Library").created moves) "Book" ["hamlet", "quixote"] ∧
      ∀ c ids, ((new "Library").actAll moves).Lists c none ids → ("hamlet" ∈ ids ↔ c = "Book") := by
  obtain ⟨hcreated, hroll⟩ := concepts_of_created "Library" moves
  have hlists : ∀ c ids, ((new "Library").actAll moves).Lists c none ids →
      ((new "Library").actAll moves).Roll ((new "Library").created moves) c ids := by
    intro c ids hids
    obtain ⟨ids', hr⟩ := hroll c
    exact hids.unique hr.listed ▸ hr
  refine ⟨hlists _ _ ⟨_, rfl, by decide +kernel⟩, hlists _ _ ⟨_, rfl, by decide +kernel⟩, ?_⟩
  obtain ⟨j, hj, hc⟩ := hcreated ⟨"hamlet", "Author", [("conceptId", .text "Play")]⟩ (List.mem_cons_self ..)
  have hbook : conceptOf? "hamlet" ((new "Library").created moves) = some "Book" := by decide +kernel
  rw [conceptOf?, hj, Option.map_some, Option.some.injEq] at hbook
  exact hbook ▸ hc

end Trinity

end TriGraph
