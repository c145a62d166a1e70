import TriGraph.Proofs.Layer.Links
import TriGraph.Proofs.Store.Replay

/-!
# What the writes of a trinity do

A write fails if a node is missing that it needs. Else it puts nodes and edges into one layer, each edge after its
ends. So what writes have done can be done once more, and the second round changes nothing.
-/

namespace TriGraph

theorem Graphs.ext_of_stores {g h : Graphs} (hs : ∀ l, g.store l = h.store l) : g = h := by
  have ho : g.ontology = h.ontology := hs .ontology
  have hi : g.instances = h.instances := hs .instances
  have hc : g.contexts = h.contexts := hs .contexts
  cases g
  cases h
  simp only at ho hi hc
  rw [ho, hi, hc]

theorem Graphs.store_setStore (l l' : Layer) (s : Store) (g : Graphs) :
    (g.setStore l s).store l' = if l = l' then s else g.store l' := by
  cases l <;> cases l' <;> rfl

namespace Trinity

def withGraphs (g : Graphs) (t : Trinity) : Trinity :=
  { t with knowledge.graphs := g }

/-! ## Effects -/

structure Effect where
  layer : Layer
  needs : List String
  writes : List Store.Write

namespace Effect

def Ready (x : Effect) (t : Trinity) : Prop :=
  ∀ id ∈ x.needs, (t.graphs.store x.layer).hasNode id = true

def Sound (x : Effect) : Prop :=
  ∀ s : Store, (∀ id ∈ x.needs, s.hasNode id = true) → s.Fits x.writes

def writesTo (l : Layer) (x : Effect) : List Store.Write :=
  if x.layer = l then x.writes else []

def node (l : Layer) (n : Node) : Effect :=
  ⟨l, [], [.node n]⟩

def edge (l : Layer) (e : Edge) : Effect :=
  ⟨l, [e.source, e.target], [.edge e]⟩

def concept (id : String) (properties : Properties) (parents : List String) : Effect :=
  ⟨.ontology, parents,
    .node (Ontology.concept id properties) :: parents.map fun parent => .edge (Ontology.isAEdge id parent)⟩

def relationType (id : String) (properties : Properties) (domain range : Option String) : Effect :=
  ⟨.ontology, domain.toList ++ range.toList,
    .node (Ontology.relation id properties) ::
      match domain, range with
      | some domain, some range => [.edge (Ontology.domainEdge domain id), .edge (Ontology.rangeEdge id range)]
      | _, _ => []⟩

end Effect

def take (x : Effect) (t : Trinity) : Trinity :=
  t.mapStore x.layer (·.putAll x.writes)

/-- A write goes through just when its needs are met, and then it has the given effect. -/
structure Effect.Describes (x : Effect) (write : Trinity → Except Knowledge.Error Trinity) : Prop where
  sound : x.Sound
  ok_iff : ∀ t u, write t = .ok u ↔ x.Ready t ∧ u = t.take x

/-! ## The effect of each write -/

theorem requireNodes_eq_ok {s : Store} {edge : String} {ids : List String} :
    requireNodes s edge ids = .ok () ↔ ∀ id ∈ ids, s.hasNode id = true := by
  unfold requireNodes
  cases h : ids.find? fun id => !s.hasNode id with
  | some id =>
    have hid : s.hasNode id = false := by simpa using List.find?_some h
    simp only [reduceCtorEq, false_iff]
    intro hall
    rw [hall id (List.mem_of_find?_eq_some h)] at hid
    cases hid
  | none => simpa using h

theorem forM_eq_ok {ε α : Type} {xs : List α} {f : α → Except ε Unit} :
    xs.forM f = .ok () ↔ ∀ x ∈ xs, f x = .ok () := by
  induction xs with
  | nil => exact ⟨fun _ _ h => (nomatch h), fun _ => rfl⟩
  | cons x xs ih =>
    rw [List.forall_mem_cons, ← ih]
    change (f x >>= fun _ => xs.forM f) = .ok () ↔ _
    cases f x with
    | error e => simp [bind, Except.bind]
    | ok u => simp [bind, Except.bind]

namespace Effect

theorem sound_node (l : Layer) (n : Node) : (node l n).Sound :=
  fun _ _ => .node (.nil _)

theorem sound_edge (l : Layer) (e : Edge) : (edge l e).Sound :=
  fun _ h => .edge (h _ (by simp [edge])) (h _ (by simp [edge])) (.nil _)

theorem fits_isA {s : Store} {id : String} {parents : List String} (hid : s.hasNode id = true)
    (hp : ∀ parent ∈ parents, s.hasNode parent = true) :
    s.Fits (parents.map fun parent => .edge (Ontology.isAEdge id parent)) := by
  induction parents generalizing s with
  | nil => exact .nil s
  | cons parent parents ih =>
    obtain ⟨hparent, hp⟩ := List.forall_mem_cons.mp hp
    have hkeep := s.covers_putAll [.edge (Ontology.isAEdge id parent)]
    exact .edge hid hparent (ih (hkeep id hid) fun p h => hkeep p (hp p h))

theorem hasNode_addNode_self (s : Store) (n : Node) : (s.addNode n).hasNode n.id = true := by
  have h : (s.putAll [.node n]).hasNode n.id = true := Store.hasNode_putAll.mpr (Or.inl ⟨n, by simp, rfl⟩)
  exact h

theorem hasNode_addNode {s : Store} {id : String} (n : Node) (h : s.hasNode id = true) :
    (s.addNode n).hasNode id = true :=
  s.covers_putAll [.node n] id h

theorem foldl_linkIsA {s : Store} {id : String} {parents : List String} (hid : s.hasNode id = true)
    (hp : ∀ parent ∈ parents, s.hasNode parent = true) :
    parents.foldl (fun s parent => linkIsA id parent s) s =
      s.putAll (parents.map fun parent => .edge (Ontology.isAEdge id parent)) := by
  induction parents generalizing s with
  | nil => rfl
  | cons parent parents ih =>
    obtain ⟨hparent, hp⟩ := List.forall_mem_cons.mp hp
    have hlink : linkIsA id parent s = s.putEdge (Ontology.isAEdge id parent) := by
      unfold linkIsA
      rw [Store.addEdge_of_present hid hparent]
      rfl
    have hkeep := s.covers_putAll [.edge (Ontology.isAEdge id parent)]
    rw [List.foldl_cons, hlink]
    exact ih (hkeep id hid) fun p h => hkeep p (hp p h)

theorem describes_addEdge (l : Layer) (e : Edge) : (edge l e).Describes (addEdge l e) := by
  refine ⟨sound_edge l e, fun t u => ?_⟩
  have hready : (edge l e).Ready t ↔
      (t.graphs.store l).hasNode e.source = true ∧ (t.graphs.store l).hasNode e.target = true := by
    simp [Ready, edge]
  rw [hready]
  unfold addEdge
  constructor
  · intro h
    cases ha : (t.graphs.store l).addEdge e with
    | error err => rw [ha] at h; cases h
    | ok s =>
      rw [ha] at h
      cases h
      obtain ⟨hs, ht, rfl⟩ := Store.addEdge_eq_ok ha
      exact ⟨⟨hs, ht⟩, rfl⟩
  · rintro ⟨⟨hs, ht⟩, rfl⟩
    rw [Store.addEdge_of_present hs ht]
    rfl

theorem describes_addNode (l : Layer) (n : Node) :
    (node l n).Describes fun t => .ok (t.mapStore l (·.addNode n)) := by
  refine ⟨sound_node l n, fun t u => ?_⟩
  have hready : (node l n).Ready t := fun _ h => (nomatch h)
  rw [and_iff_right hready, Except.ok.injEq]
  exact eq_comm

theorem Describes.of_check {x : Effect} {check : Trinity → Except Knowledge.Error Unit} {f : Trinity → Trinity}
    (hx : x.Sound) (hc : ∀ t, check t = .ok () ↔ x.Ready t) (hf : ∀ t, x.Ready t → f t = t.take x) :
    x.Describes fun t => do check t; return f t := by
  refine ⟨hx, fun t u => ?_⟩
  rw [← hc]
  cases h : check t with
  | error e =>
    simp only [reduceCtorEq, false_and, iff_false]
    intro hu
    cases hu
  | ok _ =>
    rw [← hf t ((hc t).mp h), and_iff_right rfl]
    constructor
    · intro hu
      cases hu
      rfl
    · rintro rfl
      rfl

theorem describes_createConcept (id : String) (properties : Properties) (parents : List String) :
    (concept id properties parents).Describes (createConcept id properties parents) := by
  have hself : ∀ s : Store, (s.addNode (Ontology.concept id properties)).hasNode id = true :=
    fun s => hasNode_addNode_self s (Ontology.concept id properties)
  have hkept : ∀ s : Store, (∀ parent ∈ parents, s.hasNode parent = true) →
      ∀ parent ∈ parents, (s.addNode (Ontology.concept id properties)).hasNode parent = true :=
    fun s h parent hp => hasNode_addNode _ (h parent hp)
  refine .of_check (fun s h => .node (fits_isA (hself s) (hkept s h))) (fun t => ?_) fun t h => ?_
  · rw [forM_eq_ok]
    simp only [requireNodes_eq_ok, List.forall_mem_singleton]
    rfl
  · exact congrArg (t.setStore .ontology ·) (foldl_linkIsA (hself _) (hkept _ h))

theorem describes_createRelationType (id : String) (properties : Properties) (domain range : Option String) :
    (relationType id properties domain range).Describes (createRelationType id properties domain range) := by
  let n := Ontology.relation id properties
  have hself : ∀ s : Store, (s.addNode n).hasNode id = true := fun s => hasNode_addNode_self s n
  have hkept : ∀ (s : Store) (d : Option String), (∀ a ∈ d.toList, s.hasNode a = true) →
      ∀ a ∈ d, (s.addNode n).hasNode a = true := fun s d h a ha => hasNode_addNode n (h a (Option.mem_toList.mpr ha))
  refine .of_check (fun s h => ?_) (fun t => requireNodes_eq_ok) fun t h => ?_
  · obtain ⟨hd, hr⟩ := List.forall_mem_append.mp h
    have hd := hkept s domain hd
    have hr := hkept s range hr
    cases domain with
    | none => exact .node (.nil _)
    | some d =>
      cases range with
      | none => exact .node (.nil _)
      | some r =>
        have hkeep := (s.addNode n).covers_putAll [.edge (Ontology.domainEdge d id)]
        exact .node (.edge (hd d rfl) (hself s) (.edge (hkeep _ (hself s)) (hkeep _ (hr r rfl)) (.nil _)))
  · obtain ⟨hd, hr⟩ := List.forall_mem_append.mp h
    have hd := hkept _ domain hd
    have hr := hkept _ range hr
    refine congrArg (t.setStore .ontology ·) ?_
    cases domain with
    | none => rfl
    | some d =>
      cases range with
      | none => rfl
      | some r =>
        have hdef : Ontology.defineRelationship d id r ((t.graphs.store .ontology).addNode n) = some (_, _) :=
          Ontology.defineRelationship_of_present (hd d rfl) (hself _) (hr r rfl)
        dsimp only
        rw [hdef]
        rfl

end Effect

/-! ## Many writes -/

def takeAll (xs : List Effect) (t : Trinity) : Trinity :=
  xs.foldl (fun t x => t.take x) t

def AllReady : List Effect → Trinity → Prop
  | [], _ => True
  | x :: xs, t => x.Ready t ∧ AllReady xs (t.take x)

def Covers (t u : Trinity) : Prop :=
  ∀ l, (t.graphs.store l).Covers (u.graphs.store l)

section
variable {t u : Trinity} {xs : List Effect}

theorem store_take (x : Effect) (t : Trinity) (l : Layer) :
    (t.take x).graphs.store l = (t.graphs.store l).putAll (x.writesTo l) := by
  refine (Graphs.store_setStore x.layer l _ t.graphs).trans ?_
  unfold Effect.writesTo
  by_cases hl : x.layer = l
  · rw [if_pos hl, if_pos hl, hl]
  · rw [if_neg hl, if_neg hl]
    rfl

theorem store_takeAll (xs : List Effect) (t : Trinity) (l : Layer) :
    (t.takeAll xs).graphs.store l = (t.graphs.store l).putAll (xs.flatMap (·.writesTo l)) := by
  induction xs generalizing t with
  | nil => rfl
  | cons x xs ih =>
    refine (ih (t.take x)).trans ?_
    rw [store_take, List.flatMap_cons, Store.putAll_append]

theorem withGraphs_take (x : Effect) (t : Trinity) : t.withGraphs (t.take x).graphs = t.take x := by
  obtain ⟨l, needs, writes⟩ := x
  cases l <;> rfl

theorem withGraphs_takeAll (xs : List Effect) (t : Trinity) : t.withGraphs (t.takeAll xs).graphs = t.takeAll xs := by
  induction xs generalizing t with
  | nil => rfl
  | cons x xs ih =>
    refine Eq.trans ?_ (ih (t.take x))
    rw [← withGraphs_take x t]
    rfl

theorem refresh_takeAll (xs : List Effect) (t : Trinity) : t.refresh.takeAll xs = (t.takeAll xs).refresh := by
  induction xs generalizing t with
  | nil => rfl
  | cons x xs ih => exact ih (t.take x)

theorem covers_takeAll (xs : List Effect) (t : Trinity) : t.Covers (t.takeAll xs) := by
  intro l
  rw [store_takeAll]
  exact Store.covers_putAll _ _

theorem Effect.Ready.mono {x : Effect} (h : x.Ready t) (htu : t.Covers u) : x.Ready u :=
  fun id hid => htu x.layer id (h id hid)

theorem Effect.Sound.fits {x : Effect} (hx : x.Sound) (h : x.Ready t) (l : Layer) :
    (t.graphs.store l).Fits (x.writesTo l) := by
  unfold Effect.writesTo
  split
  · rename_i hl
    subst hl
    exact hx _ h
  · exact .nil _

theorem AllReady.mono (h : AllReady xs t) (htu : t.Covers u) : AllReady xs u := by
  induction xs generalizing t u with
  | nil => trivial
  | cons x xs ih =>
    refine ⟨h.1.mono htu, ih h.2 fun l => ?_⟩
    rw [store_take, store_take]
    exact (htu l).putAll _

theorem AllReady.fits (h : AllReady xs t) (hx : ∀ x ∈ xs, x.Sound) (l : Layer) :
    (t.graphs.store l).Fits (xs.flatMap (·.writesTo l)) := by
  induction xs generalizing t with
  | nil => exact .nil _
  | cons x xs ih =>
    obtain ⟨hxs, hrest⟩ := List.forall_mem_cons.mp hx
    have ih := ih h.2 hrest
    rw [store_take] at ih
    rw [List.flatMap_cons]
    exact (hxs.fits h.1 l).append ih

theorem takeAll_again (ht : ∀ l, (t.graphs.store l).Reachable) (hx : ∀ x ∈ xs, x.Sound) (h : AllReady xs t) :
    (t.takeAll xs).takeAll xs = t.takeAll xs := by
  have hg : ((t.takeAll xs).takeAll xs).graphs = (t.takeAll xs).graphs := by
    refine Graphs.ext_of_stores fun l => ?_
    rw [store_takeAll, store_takeAll]
    exact Store.putAll_again (ht l) (h.fits hx l)
  rw [← withGraphs_takeAll xs (t.takeAll xs), hg]
  rfl

end

end Trinity

end TriGraph
