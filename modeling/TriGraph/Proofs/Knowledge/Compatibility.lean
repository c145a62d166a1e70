import TriGraph.Proofs.Constraint.Reading
import TriGraph.Proofs.Constraint.Resolution
import TriGraph.Proofs.Index.Agreement
import TriGraph.Proofs.Trinity.Bags
import TriGraph.Proofs.Value.Equality

/-!
# Compatible contexts and related instances

Both verdicts scan for an edge between the two nodes and then compare their properties, whichever of them comes first.

The rule for contexts is about their kinds. It is applied to contexts of one type, and one kind may go by several
types. The rule for instances asks for something in common, and that neither has a concept counts as a concept in
common.
-/

namespace TriGraph

/-! ## Edges between two nodes -/

namespace Store

variable {s : Store}

def Joined (s : Store) (type : Option String) (a b : String) : Prop :=
  ∃ e ∈ s.allEdges, (e.source = a ∧ e.target = b ∨ e.source = b ∧ e.target = a) ∧ ∀ t ∈ type, e.type = t

theorem holds_equals_text {c : Constraint} {e : Entity} {key u v : String} (hk : e.Resolves s key (.text u)) :
    s.holds (Constraint.equals key (.text v) c) e = true ↔ s.holds c e = true ∧ u = v := by
  simp [holds, Constraint.matches, Constraint.equals, Constraint.test, Constraint.clausesHold_append,
    Constraint.clausesHold_singleton, holds_ofKey, hk.value, Predicate.test, Value.beq_text]

namespace Linked

variable (h : s.Linked)
include h

theorem leads_id {id : String} (hid : s.hasNode id = true) :
    ∃ n, s.node? id = some n ∧ Place.Leads s (.entity (.node n)) ["id"] (.text id) := by
  obtain ⟨n, hn, hid⟩ := h.hasNode_iff.mp hid
  subst hid
  exact ⟨n, h.nodes.get?_of_mem hn, .id (.value _)⟩

theorem resolves_source {e : Edge} (he : e ∈ s.allEdges) :
    (Entity.edge e).Resolves s "source.id" (.text e.source) := by
  have hs : segments "source.id" = ["source", "id"] := by decide +kernel
  obtain ⟨n, hn, hl⟩ := h.leads_id (h.source e he)
  exact .path (by decide) (hs ▸ .source hn hl)

theorem resolves_target {e : Edge} (he : e ∈ s.allEdges) :
    (Entity.edge e).Resolves s "target.id" (.text e.target) := by
  have hs : segments "target.id" = ["target", "id"] := by decide +kernel
  obtain ⟨n, hn, hl⟩ := h.leads_id (h.target e he)
  exact .path (by decide) (hs ▸ .target hn hl)

theorem holds_leading {type : Option String} {a b : String} {e : Edge} (he : e ∈ s.allEdges) :
    s.holds (Constraint.leading type a b) (.edge e) = true ↔
      (e.source = a ∧ e.target = b) ∧ ∀ t ∈ type, e.type = t := by
  have hends : s.holds (Constraint.leading none a b) (.edge e) = true ↔ e.source = a ∧ e.target = b := by
    rw [Constraint.leading, holds_equals_text (h.resolves_target he), holds_equals_text (h.resolves_source he)]
    simp [holds, Constraint.matches, clausesHold]
  cases type with
  | none => simpa using hends
  | some type =>
    have htype : (Entity.edge e).Resolves s "type" (.text e.type) := .type
    refine (holds_equals_text htype).trans (and_congr hends ?_)
    simp

theorem linked_iff {type : Option String} {a b : String} :
    s.linked type a b = true ↔ ∃ e ∈ s.allEdges, (e.source = a ∧ e.target = b) ∧ ∀ t ∈ type, e.type = t := by
  have hfound : s.linked type a b = true ↔ ∃ e, e ∈ s.findEdges (Constraint.leading type a b) := by
    simp [linked, List.eq_nil_iff_forall_not_mem]
  rw [hfound]
  refine exists_congr fun e => ?_
  rw [findEdges, List.mem_filter]
  exact and_congr_right fun he => h.holds_leading he

theorem joined_iff {type : Option String} {a b : String} : s.joined type a b = true ↔ s.Joined type a b := by
  simp only [joined, Bool.or_eq_true, h.linked_iff, Joined, ← exists_or, ← and_or_left, ← or_and_right]

end Linked

theorem joined_comm (type : Option String) (a b : String) : s.joined type a b = s.joined type b a :=
  Bool.or_comm _ _

end Store

/-! ## Properties of two nodes -/

namespace Node

variable {a b : Node} {name : String}

def Agree (name : String) (a b : Node) : Prop :=
  ∃ v w, a.property? name = some v ∧ b.property? name = some w ∧ (v == w) = true

def Lack (name : String) (a b : Node) : Prop :=
  a.property? name = none ∧ b.property? name = none

theorem Agree.symm (h : Agree name a b) : Agree name b a := by
  obtain ⟨v, w, hv, hw, he⟩ := h
  exact ⟨w, v, hw, hv, (Value.beq_comm w v).trans he⟩

theorem property?_beq_iff : (a.property? name == b.property? name) = true ↔ Lack name a b ∨ Agree name a b := by
  unfold Lack Agree
  cases a.property? name <;> cases b.property? name <;> simp

end Node

/-! ## Contexts -/

theorem ContextKind.ofNode_congr {a b : Node} (h : a.type = b.type) : ofNode a = ofNode b :=
  congrArg ofName h

namespace Contexts

def Overlap (a b : Node) : Prop :=
  ∀ startA ∈ a.property? startTime, ∀ endA ∈ a.property? endTime,
    ∀ startB ∈ b.property? startTime, ∀ endB ∈ b.property? endTime,
      endA.less startB = false ∧ endB.less startA = false

def SamePlace (a b : Node) : Prop :=
  Node.Lack location a b ∨ Node.Agree location a b

def Meet (a b : Node) : Prop :=
  match ContextKind.ofNode a, ContextKind.ofNode b with
  | .temporal, .temporal => Overlap a b
  | .spatial, .spatial => SamePlace a b
  | _, _ => True

end Contexts

namespace Knowledge

variable {k : Knowledge} {a b : Node}

def Compatible (k : Knowledge) (a b : Node) : Prop :=
  ¬k.graphs.contexts.Joined (some Contexts.incompatibleWith) a.id b.id ∧
    (k.graphs.contexts.Joined (some Contexts.refines) a.id b.id ∨ Contexts.Meet a b)

theorem intervalsMeet_iff : intervalsMeet a b = true ↔ Contexts.Overlap a b := by
  unfold intervalsMeet Contexts.Overlap
  cases a.property? Contexts.startTime <;> cases a.property? Contexts.endTime <;>
    cases b.property? Contexts.startTime <;> cases b.property? Contexts.endTime <;> simp

theorem intervalsMeet_comm (a b : Node) : intervalsMeet a b = intervalsMeet b a := by
  unfold intervalsMeet
  cases a.property? Contexts.startTime <;> cases a.property? Contexts.endTime <;>
    cases b.property? Contexts.startTime <;> cases b.property? Contexts.endTime <;> simp [Bool.and_comm]

theorem placesAgree_comm (a b : Node) : placesAgree a b = placesAgree b a :=
  Value.optionBeq_comm _ _

theorem contextsCompatible_iff (h : k.graphs.contexts.Linked) : k.contextsCompatible a b = true ↔
    ¬k.graphs.contexts.Joined (some Contexts.incompatibleWith) a.id b.id ∧
      (k.graphs.contexts.Joined (some Contexts.refines) a.id b.id ∨ a.type ≠ b.type ∨ Contexts.Meet a b) := by
  simp only [contextsCompatible, ← h.joined_iff]
  cases k.graphs.contexts.joined (some Contexts.incompatibleWith) a.id b.id with
  | true => simp
  | false =>
    cases k.graphs.contexts.joined (some Contexts.refines) a.id b.id with
    | true => simp
    | false =>
      by_cases ht : a.type = b.type
      · simp only [ht, Contexts.Meet, ContextKind.ofNode_congr ht]
        cases ContextKind.ofNode b with
        | temporal => simp [intervalsMeet_iff]
        | spatial => simp [placesAgree, Node.property?_beq_iff, Contexts.SamePlace]
        | perspective => simp
        | custom name => simp
      · simp [ht]

theorem meet_of_type_ne (ha : (ContextKind.ofNode a).nodeType = a.type) (hb : (ContextKind.ofNode b).nodeType = b.type)
    (hne : a.type ≠ b.type) : Contexts.Meet a b := by
  have hk : ContextKind.ofNode a ≠ ContextKind.ofNode b := fun hk => hne (ha ▸ hb ▸ congrArg _ hk)
  unfold Contexts.Meet
  split
  · next hka hkb => exact absurd (hka.trans hkb.symm) hk
  · next hka hkb => exact absurd (hka.trans hkb.symm) hk
  · trivial

theorem contextsCompatible_comm (a b : Node) : k.contextsCompatible a b = k.contextsCompatible b a := by
  simp only [contextsCompatible, Store.joined_comm _ b.id]
  by_cases ht : a.type = b.type
  · simp only [ht, ContextKind.ofNode_congr ht, intervalsMeet_comm b, placesAgree_comm b]
  · simp only [ht, Ne.symm ht, ne_eq, not_false_eq_true, if_true]

theorem mem_compatible (h : k.graphs.contexts.Linked) (ha : a ∈ k.graphs.contexts.allNodes)
    (hb : b ∈ k.graphs.contexts.allNodes) (hne : a ≠ b) (hc : k.contextsCompatible a b = true) :
    b ∈ Contexts.compatible a.id k.graphs.contexts := by
  obtain ⟨hi, -⟩ := (contextsCompatible_iff h).mp hc
  have hid : b.id ≠ a.id := fun hid => hne (h.nodes.eq_of_key_eq ha hb hid.symm)
  -- the list goes by edges that lead away from the context, the verdict by those in either direction
  have hfree : ∀ e ∈ k.graphs.contexts.allEdges, e.type = Contexts.incompatibleWith → e.source = a.id → e.target ≠ b.id :=
    fun e he ht hs hb => hi ⟨e, he, Or.inl ⟨hs, hb⟩, by simpa using ht⟩
  rw [Contexts.compatible, if_pos (h.hasNode_iff.mpr ⟨a, ha, rfl⟩)]
  simpa [hb, hid] using hfree

/-! ## Instances -/

theorem shareProperty_iff (ha : Catalog.Sorted a.properties) :
    shareProperty a b = true ↔ ∃ name, Node.Agree name a b := by
  unfold shareProperty
  rw [List.any_eq_true]
  constructor
  · rintro ⟨⟨name, v⟩, hv, hw⟩
    obtain ⟨w, hw, he⟩ : ∃ w, b.property? name = some w ∧ (w == v) = true := by
      cases hb : b.property? name <;> simp_all
    -- a bag in order has each name once, so the entry is also the one that a lookup finds
    exact ⟨name, v, w, ha.get?_of_mem hv, hw, (Value.beq_comm v w).trans he⟩
  · rintro ⟨name, v, w, hv, hw, he⟩
    refine ⟨(name, v), Catalog.mem_of_get? hv, ?_⟩
    simpa [hw] using (Value.beq_comm w v).trans he

theorem shareProperty_comm (ha : Catalog.Sorted a.properties) (hb : Catalog.Sorted b.properties) :
    shareProperty a b = shareProperty b a := by
  rw [Bool.eq_iff_iff, shareProperty_iff ha, shareProperty_iff hb]
  exact exists_congr fun _ => ⟨.symm, .symm⟩

theorem instancesRelated_iff (h : k.graphs.instances.Linked) (ha : Catalog.Sorted a.properties) :
    k.instancesRelated a b = true ↔
      k.graphs.instances.Joined none a.id b.id ∨ (∃ name, Node.Agree name a b) ∨ Node.Lack Instances.conceptId a b := by
  unfold instancesRelated
  rw [Bool.or_eq_true, Bool.or_eq_true, h.joined_iff, shareProperty_iff ha, Node.property?_beq_iff]
  constructor
  · rintro (((hl | hc) | hj) | hs)
    · exact Or.inr (Or.inr hl)
    · exact Or.inr (Or.inl ⟨_, hc⟩)
    · exact Or.inl hj
    · exact Or.inr (Or.inl hs)
  · rintro (hj | hs | hl)
    · exact Or.inl (Or.inr hj)
    · exact Or.inr hs
    · exact Or.inl (Or.inl (Or.inl hl))

theorem instancesRelated_comm (ha : Catalog.Sorted a.properties) (hb : Catalog.Sorted b.properties) :
    k.instancesRelated a b = k.instancesRelated b a := by
  unfold instancesRelated
  rw [Value.optionBeq_comm, Store.joined_comm, shareProperty_comm ha hb]

end Knowledge

/-! ## In a trinity -/

namespace Trinity

def dawn : Node := Contexts.temporal "dawn" (.int 4) (.int 7) []

def morning : Node := Contexts.temporal "morning" (.int 6) (.int 11) []

def noon : Node := { id := "noon", type := "temporal", properties := [("endTime", .int 13), ("startTime", .int 12)] }

def rooster : Node := { id := "rooster", type := "Bird", properties := [("colour", .text "red")] }

def rose : Node := { id := "rose", type := "Flower", properties := [("colour", .text "red"), ("conceptId", .text "Plant")] }

def stone : Node := { id := "stone", type := "Rock" }

def day : Trinity :=
  ((Trinity.new "day").mapStore .contexts (·.run [.addNode dawn, .addNode morning, .addNode noon])).mapStore .instances
    (·.run [.addNode rooster, .addNode rose, .addNode stone])

theorem tidy_day : day.Tidy := by
  have hbag : ∀ n ∈ [dawn, morning, noon, rooster, rose, stone], Catalog.Sorted n.properties := by
    unfold Catalog.Sorted
    decide +kernel
  refine ((Tidy.new "day").run .contexts fun c hc => ?_).run .instances fun c hc => ?_
  all_goals
    simp only [List.mem_cons, List.not_mem_nil, or_false] at hc
    rcases hc with rfl | rfl | rfl <;> exact hbag _ (by simp)

theorem contexts_day : day.graphs.contexts.allNodes = [dawn, morning, noon] := rfl

theorem instances_day : day.graphs.instances.allNodes = [rooster, rose, stone] := rfl

variable {t : Trinity} {a b : Node}

/-- Contexts of one kind but of two types are compatible whether they meet or not; in all else the verdict is that of
the rule. -/
theorem compatible_iff_rule (ht : t.Built) (a b : Node) :
    (t.knowledge.contextsCompatible a b = true ↔
      ¬t.graphs.contexts.Joined (some Contexts.incompatibleWith) a.id b.id ∧
        (t.graphs.contexts.Joined (some Contexts.refines) a.id b.id ∨ a.type ≠ b.type ∨ Contexts.Meet a b)) ∧
    ((t.knowledge.contextsCompatible a b = true ↔ t.knowledge.Compatible a b) ↔
      t.graphs.contexts.Joined (some Contexts.incompatibleWith) a.id b.id ∨
        t.graphs.contexts.Joined (some Contexts.refines) a.id b.id ∨ a.type = b.type ∨ Contexts.Meet a b) ∧
    ((ContextKind.ofNode a).nodeType = a.type → (ContextKind.ofNode b).nodeType = b.type →
      (t.knowledge.contextsCompatible a b = true ↔ t.knowledge.Compatible a b)) := by
  have hverdict := Knowledge.contextsCompatible_iff (k := t.knowledge) (a := a) (b := b) (ht.store .contexts).linked
  have hrule : (t.knowledge.contextsCompatible a b = true ↔ t.knowledge.Compatible a b) ↔
      t.graphs.contexts.Joined (some Contexts.incompatibleWith) a.id b.id ∨
        t.graphs.contexts.Joined (some Contexts.refines) a.id b.id ∨ a.type = b.type ∨ Contexts.Meet a b := by
    rw [hverdict, Knowledge.Compatible, ← graphs]
    by_cases hi : t.graphs.contexts.Joined (some Contexts.incompatibleWith) a.id b.id
    · simp [hi]
    by_cases hr : t.graphs.contexts.Joined (some Contexts.refines) a.id b.id
    · simp [hr]
    by_cases he : a.type = b.type
    · simp [he]
    · simp [hi, hr, he]
  refine ⟨hverdict, hrule, fun ha hb => hrule.mpr (Or.inr (Or.inr ?_))⟩
  by_cases htype : a.type = b.type
  · exact Or.inl htype
  · exact Or.inr (Knowledge.meet_of_type_ne ha hb htype)

theorem compatible_iff_rule_day : day.Built ∧ day.knowledge.contextsCompatible dawn morning = true ∧
    day.knowledge.Compatible dawn morning := by
  have hc : day.knowledge.contextsCompatible dawn morning = true := by decide +kernel
  have hrule := (compatible_iff_rule tidy_day.built dawn morning).2.2 (by decide +kernel) (by decide +kernel)
  exact ⟨tidy_day.built, hc, hrule.mp hc⟩

/-- Dawn is over when noon begins. -/
theorem compatible_ne_rule : day.Built ∧ dawn ∈ day.graphs.contexts.allNodes ∧ noon ∈ day.graphs.contexts.allNodes ∧
    day.knowledge.contextsCompatible dawn noon = true ∧ ¬day.knowledge.Compatible dawn noon := by
  refine ⟨tidy_day.built, by simp [contexts_day], by simp [contexts_day], by decide +kernel, fun ⟨_, h⟩ => ?_⟩
  rcases h with ⟨e, he, -⟩ | hm
  · cases he
  · have hdawn : ContextKind.ofNode dawn = .temporal := by decide +kernel
    have hnoon : ContextKind.ofNode noon = .temporal := by decide +kernel
    rw [Contexts.Meet, hdawn, hnoon] at hm
    exact absurd (hm _ rfl _ rfl _ rfl _ rfl).1 (by decide)

/-- It makes no difference to either verdict which of the two comes first, and compatible contexts list each other. -/
theorem verdicts_comm (ht : t.Tidy) :
    (∀ a ∈ t.graphs.contexts.allNodes, ∀ b ∈ t.graphs.contexts.allNodes,
      t.knowledge.contextsCompatible a b = t.knowledge.contextsCompatible b a) ∧
    (∀ a ∈ t.graphs.instances.allNodes, ∀ b ∈ t.graphs.instances.allNodes,
      t.knowledge.instancesRelated a b = t.knowledge.instancesRelated b a) ∧
    (∀ a ∈ t.graphs.contexts.allNodes, ∀ b ∈ t.graphs.contexts.allNodes, a ≠ b →
      t.knowledge.contextsCompatible a b = true →
        b ∈ Contexts.compatible a.id t.graphs.contexts ∧ a ∈ Contexts.compatible b.id t.graphs.contexts) := by
  have hbags := ht.store .instances
  have hl := (ht.built.store .contexts).linked
  refine ⟨fun a _ b _ => Knowledge.contextsCompatible_comm a b, fun a ha b hb => ?_, fun a ha b hb hne hc => ⟨?_, ?_⟩⟩
  · exact Knowledge.instancesRelated_comm (hbags.nodes a ha) (hbags.nodes b hb)
  · exact Knowledge.mem_compatible hl ha hb hne hc
  · exact Knowledge.mem_compatible hl hb ha hne.symm ((Knowledge.contextsCompatible_comm b a).trans hc)

theorem verdicts_comm_day : day.Tidy ∧
    day.knowledge.contextsCompatible morning noon = day.knowledge.contextsCompatible noon morning ∧
    day.knowledge.instancesRelated rooster rose = day.knowledge.instancesRelated rose rooster ∧
    morning ∈ Contexts.compatible "dawn" day.graphs.contexts := by
  have hne : dawn ≠ morning := fun he => absurd (congrArg Node.id he) (by decide)
  have hc : day.knowledge.contextsCompatible dawn morning = true := by decide +kernel
  obtain ⟨hcontexts, hinstances, hlisted⟩ := verdicts_comm tidy_day
  rw [contexts_day] at hcontexts hlisted
  rw [instances_day] at hinstances
  exact ⟨tidy_day, hcontexts _ (by simp) _ (by simp), hinstances _ (by simp) _ (by simp),
    (hlisted dawn (by simp) morning (by simp) hne hc).1⟩

/-- Instances without a concept are related; in all else the verdict is that of the rule. -/
theorem related_iff_evidence (ht : t.Tidy) (ha : a ∈ t.graphs.instances.allNodes) (b : Node) :
    (t.knowledge.instancesRelated a b = true ↔
      t.graphs.instances.Joined none a.id b.id ∨ (∃ name, Node.Agree name a b) ∨ Node.Lack Instances.conceptId a b) ∧
    ((t.knowledge.instancesRelated a b = true ↔
        t.graphs.instances.Joined none a.id b.id ∨ ∃ name, Node.Agree name a b) ↔
      (Node.Lack Instances.conceptId a b →
        t.graphs.instances.Joined none a.id b.id ∨ ∃ name, Node.Agree name a b)) := by
  have hverdict := Knowledge.instancesRelated_iff (k := t.knowledge) (b := b) (ht.built.store .instances).linked
    ((ht.store .instances).nodes a ha)
  refine ⟨hverdict, ?_⟩
  rw [hverdict, ← or_assoc]
  exact or_iff_left_iff_imp

theorem related_iff_evidence_day : day.Tidy ∧ rooster ∈ day.graphs.instances.allNodes ∧
    day.knowledge.instancesRelated rooster rose = true := by
  have hr : rooster ∈ day.graphs.instances.allNodes := by simp [instances_day]
  refine ⟨tidy_day, hr, (related_iff_evidence tidy_day hr rose).1.mpr (Or.inr (Or.inl ⟨"colour", _, _, rfl, rfl, ?_⟩))⟩
  decide

/-- Neither of the two has a concept, and they share nothing else either. -/
theorem related_ne_evidence : day.Tidy ∧ rooster ∈ day.graphs.instances.allNodes ∧ stone ∈ day.graphs.instances.allNodes ∧
    day.knowledge.instancesRelated rooster stone = true ∧
    ¬(day.graphs.instances.Joined none rooster.id stone.id ∨ ∃ name, Node.Agree name rooster stone) := by
  refine ⟨tidy_day, by simp [instances_day], by simp [instances_day], by decide +kernel, ?_⟩
  rintro (⟨e, he, -⟩ | ⟨name, v, w, -, hw, -⟩)
  · cases he
  · cases hw

end Trinity

end TriGraph
