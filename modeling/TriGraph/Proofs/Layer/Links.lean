import TriGraph.Layer.Contexts
import TriGraph.Proofs.Store.Integrity
import TriGraph.Proofs.Trinity.History

/-!
# Declared links

Two declared links may come to the same id, and then the later one takes the place of the earlier one. That does not
happen as long as the ids of the nodes have no underscore.
-/

namespace TriGraph

structure Link where
  source : String
  type : String
  target : String
deriving DecidableEq

def Edge.link (e : Edge) : Link :=
  ⟨e.source, e.type, e.target⟩

def Store.links (s : Store) : List Link :=
  s.allEdges.map Edge.link

/-! ## Edges that tell links apart -/

/-- No two of the edges have one id but different links. -/
def ClashFree (es : List Edge) : Prop :=
  ∀ d ∈ es, ∀ e ∈ es, d.id = e.id → d.link = e.link

def SingleNamed (es : List Edge) : Prop :=
  ∀ d ∈ es, ∀ e ∈ es, d.link = e.link → d.id = e.id

theorem ClashFree.mono {ds es : List Edge} (h : ClashFree es) (hs : ds ⊆ es) : ClashFree ds :=
  fun d hd e he => h d (hs hd) e (hs he)

/-! ## Taking in edges -/

namespace Store

/-- The edges are taken in one after the other; one may be left out whose link is there already. -/
inductive Takes : Store → List Edge → Store → Prop where
  | nil (s : Store) : Takes s [] s
  | put {s t : Store} {e : Edge} {es : List Edge} (hs : s.hasNode e.source = true) (ht : s.hasNode e.target = true)
      (h : Takes (s.putEdge e) es t) : Takes s (e :: es) t
  | found {s t : Store} {d e : Edge} {es : List Edge} (hd : d ∈ s.allEdges) (hl : d.link = e.link)
      (h : Takes s es t) : Takes s (e :: es) t

namespace Takes

variable {s t u : Store} {ds es : List Edge}

theorem append (h : Takes s ds t) (h' : Takes t es u) : Takes s (ds ++ es) u := by
  induction h with
  | nil s => exact h'
  | put hs ht _ ih => exact .put hs ht (ih h')
  | found hd hl _ ih => exact .found hd hl (ih h')

theorem nodes (h : Takes s es t) : t.nodes = s.nodes := by
  induction h with
  | nil s => rfl
  | put _ _ _ ih => simpa [Store.putEdge] using ih
  | found _ _ _ ih => exact ih

theorem linked (h : Takes s es t) (hs : s.Linked) : t.Linked := by
  induction h with
  | nil s => exact hs
  | put hsource htarget _ ih => exact ih (hs.putEdge hsource htarget)
  | found _ _ _ ih => exact ih hs

theorem subset (h : Takes s es t) (hs : s.Linked) : t.allEdges ⊆ s.allEdges ++ es := by
  induction h with
  | nil s => simp
  | @put s t e es hsource htarget _ ih =>
    intro d hd
    have hd := ih (hs.putEdge hsource htarget) hd
    simp only [List.mem_append, hs.mem_allEdges_putEdge, List.mem_cons] at hd ⊢
    rcases hd with (rfl | ⟨hd, -⟩) | hd
    · exact .inr (.inl rfl)
    · exact .inl hd
    · exact .inr (.inr hd)
  | found _ _ _ ih =>
    intro d hd
    have hd := ih hs hd
    simp only [List.mem_append, List.mem_cons] at hd ⊢
    rcases hd with hd | hd
    · exact .inl hd
    · exact .inr (.inr hd)

theorem kept (h : Takes s es t) (hs : s.Linked) (hc : ClashFree (s.allEdges ++ es)) :
    ∀ e ∈ s.allEdges ++ es, e.link ∈ t.links := by
  -- the freedom from clashes goes down with the edges still to come
  induction h with
  | nil s =>
    intro e he
    rw [List.append_nil] at he
    exact List.mem_map_of_mem he
  | @put s t f es hsource htarget h ih =>
    have hl := hs.putEdge hsource htarget
    have hsub : (s.putEdge f).allEdges ++ es ⊆ s.allEdges ++ f :: es := by
      intro d hd
      simp only [List.mem_append, hs.mem_allEdges_putEdge, List.mem_cons] at hd ⊢
      tauto
    have ih := ih hl (hc.mono hsub)
    have hf : f.link ∈ t.links := ih f (List.mem_append_left _ (hs.mem_allEdges_putEdge.mpr (.inl rfl)))
    intro e he
    rcases List.mem_append.mp he with hold | hnew
    · by_cases hid : e.id = f.id
      · rw [hc e he f (by simp) hid]
        exact hf
      · exact ih e (List.mem_append_left _ (hs.mem_allEdges_putEdge.mpr (.inr ⟨hold, hid⟩)))
    · rcases List.mem_cons.mp hnew with rfl | hnew
      · exact hf
      · exact ih e (List.mem_append_right _ hnew)
  | @found s t d f es hd hl _ ih =>
    have ih := ih hs (hc.mono (by simp))
    intro e he
    rcases List.mem_append.mp he with hold | hnew
    · exact ih e (List.mem_append_left _ hold)
    · rcases List.mem_cons.mp hnew with rfl | hnew
      · rw [← hl]
        exact ih d (List.mem_append_left _ hd)
      · exact ih e (List.mem_append_right _ hnew)

theorem clashFree (h : Takes s es t) (hs : s.Linked) (hn : SingleNamed (s.allEdges ++ es))
    (hk : ∀ e ∈ s.allEdges ++ es, e.link ∈ t.links) : ClashFree (s.allEdges ++ es) := by
  intro d hd e he hid
  obtain ⟨d', hd', hdl⟩ := List.mem_map.mp (hk d hd)
  obtain ⟨e', he', hel⟩ := List.mem_map.mp (hk e he)
  have hdid : d'.id = d.id := hn d' (h.subset hs hd') d hd hdl
  have heid : e'.id = e.id := hn e' (h.subset hs he') e he hel
  have : d' = e' := (h.linked hs).edges.eq_of_key_eq hd' he' (hdid.trans (hid.trans heid.symm))
  rw [← hdl, ← hel, this]

end Takes

end Store

/-! ## Declarations -/

inductive Declaration where
  | isA (source target : String)
  | hasProperty (concept property : String)
  | relationship (source relation target : String)
  | relate (source target type : String) (properties : Properties)
  | refine (general specific : String) (properties : Properties)
  | identity (id : String)

namespace Declaration

def loop (id : String) (n : Node) : Edge :=
  { id := "identity_" ++ id, source := id, target := id, type := Store.identityType n.type }

def written (s : Store) : Declaration → List Edge
  | .isA source target => [Ontology.isAEdge source target]
  | .hasProperty concept property => [Ontology.hasPropertyEdge concept property]
  | .relationship source relation target => [Ontology.domainEdge source relation, Ontology.rangeEdge relation target]
  | .relate source target type properties => [Contexts.relation source target type properties]
  | .refine general specific properties => [Contexts.refinement general specific properties]
  | .identity id => (s.node? id).toList.map (loop id)

def Present (s : Store) (d : Declaration) : Prop :=
  ∀ e ∈ d.written s, s.hasNode e.source = true ∧ s.hasNode e.target = true

theorem written_congr {s t : Store} (h : t.nodes = s.nodes) (d : Declaration) : d.written t = d.written s := by
  cases d <;> simp [written, Store.node?, h]

theorem Present.congr {s t : Store} (h : t.nodes = s.nodes) {d : Declaration} (hp : d.Present s) : d.Present t := by
  intro e he
  rw [written_congr h] at he
  simpa [Store.hasNode, h] using hp e he

end Declaration

theorem Ontology.defineRelationship_of_present {s : Store} {source relation target : String}
    (hs : s.hasNode source = true) (hr : s.hasNode relation = true) (ht : s.hasNode target = true) :
    defineRelationship source relation target s =
      some ([domainEdge source relation, rangeEdge relation target],
        (s.putEdge (domainEdge source relation)).putEdge (rangeEdge relation target)) := by
  have hd : s.addEdge (domainEdge source relation) = .ok (s.putEdge (domainEdge source relation)) :=
    Store.addEdge_of_present hs hr
  have hg : (s.putEdge (domainEdge source relation)).addEdge (rangeEdge relation target) =
      .ok ((s.putEdge (domainEdge source relation)).putEdge (rangeEdge relation target)) :=
    Store.addEdge_of_present ((s.hasNode_putEdge _ relation).trans hr) ((s.hasNode_putEdge _ target).trans ht)
  unfold defineRelationship
  simp only [hs, hr, ht, hd, hg, List.all_cons, List.all_nil, Bool.and_true, if_true]

namespace Store

def declare (s : Store) : Declaration → Store
  | .isA source target => (s.addEdge (Ontology.isAEdge source target)).toOption.getD s
  | .hasProperty concept property => (s.addEdge (Ontology.hasPropertyEdge concept property)).toOption.getD s
  | .relationship source relation target =>
    ((Ontology.defineRelationship source relation target s).map (·.2)).getD s
  | .relate source target type properties =>
    (s.addEdge (Contexts.relation source target type properties)).toOption.getD s
  | .refine general specific properties =>
    (s.addEdge (Contexts.refinement general specific properties)).toOption.getD s
  | .identity id => ((s.identity id).map (·.2)).getD s

def declared (s : Store) (ds : List Declaration) : List Edge :=
  ds.flatMap (·.written s)

def declareAll (s : Store) (ds : List Declaration) : Store :=
  ds.foldl declare s

section
variable {s : Store}

theorem takes_addEdge {e : Edge} (hs : s.hasNode e.source = true) (ht : s.hasNode e.target = true) :
    Takes s [e] ((s.addEdge e).toOption.getD s) := by
  rw [addEdge_of_present hs ht]
  exact .put hs ht (.nil _)

theorem takes_relationship {source relation target : String} (hs : s.hasNode source = true)
    (hr : s.hasNode relation = true) (ht : s.hasNode target = true) :
    Takes s [Ontology.domainEdge source relation, Ontology.rangeEdge relation target]
      (((Ontology.defineRelationship source relation target s).map (·.2)).getD s) := by
  rw [Ontology.defineRelationship_of_present hs hr ht]
  exact .put hs hr (.put ((s.hasNode_putEdge _ relation).trans hr) ((s.hasNode_putEdge _ target).trans ht) (.nil _))

theorem takes_identity (id : String) :
    Takes s ((Declaration.identity id).written s) (((s.identity id).map (·.2)).getD s) := by
  change Takes s ((s.node? id).toList.map (Declaration.loop id)) _
  unfold identity
  cases hn : s.node? id with
  | none => exact .nil s
  | some n =>
    have hh : s.hasNode id = true := Table.contains_of_get? hn
    simp only [bind, Option.bind]
    split
    · rename_i _ e he
      have hm := List.mem_of_find?_eq_some he
      have hl := List.find?_some he
      simp only [Edge.isLoop, Bool.and_eq_true, beq_iff_eq] at hl
      obtain ⟨⟨hloop, hsource⟩, htype⟩ := hl
      have hlink : e.link = (Declaration.loop id n).link := by
        simp [Edge.link, Declaration.loop, ← hloop, hsource, htype]
      have hs : ((((s.edge? e.id).map (·, s)).map (·.2)).getD s) = s := by
        cases s.edge? e.id <;> rfl
      rw [hs]
      exact .found hm hlink (.nil s)
    · have hadd : s.addEdge (Declaration.loop id n) = .ok (s.putEdge (Declaration.loop id n)) :=
        addEdge_of_present hh hh
      unfold Declaration.loop at hadd
      rw [hadd]
      exact .put hh hh (.nil _)

theorem takes_declare {d : Declaration} (hp : d.Present s) : Takes s (d.written s) (s.declare d) := by
  cases d with
  | relationship source relation target =>
    obtain ⟨hs, hr⟩ := hp (Ontology.domainEdge source relation) (by simp [Declaration.written])
    obtain ⟨-, ht⟩ := hp (Ontology.rangeEdge relation target) (by simp [Declaration.written])
    exact takes_relationship hs hr ht
  | identity id => exact takes_identity id
  | isA | hasProperty | relate | refine =>
    obtain ⟨hs, ht⟩ := hp _ (List.mem_singleton_self _)
    exact takes_addEdge hs ht

theorem takes_declareAll {ds : List Declaration} (hp : ∀ d ∈ ds, d.Present s) :
    Takes s (s.declared ds) (s.declareAll ds) := by
  induction ds generalizing s with
  | nil => exact .nil s
  | cons d ds ih =>
    have h := takes_declare (hp d (List.mem_cons_self ..))
    have hrest : ∀ d' ∈ ds, d'.Present (s.declare d) := fun d' hd' =>
      (hp d' (List.mem_cons_of_mem _ hd')).congr h.nodes
    have hrest' : (s.declare d).declared ds = s.declared ds := by
      unfold declared
      exact List.flatMap_congr fun d' _ => d'.written_congr h.nodes
    have ih := ih hrest
    rw [hrest'] at ih
    exact h.append ih

end

/-- Whatever is declared between nodes that are there, no link is lost if ids tell links apart; that is needed, too,
where each link has a single id. -/
theorem links_kept_iff {s : Store} (hs : s.Reachable) {ds : List Declaration} (hp : ∀ d ∈ ds, d.Present s) :
    (ClashFree (s.allEdges ++ s.declared ds) →
      ∀ e ∈ s.allEdges ++ s.declared ds, e.link ∈ (s.declareAll ds).links) ∧
    (SingleNamed (s.allEdges ++ s.declared ds) →
      (∀ e ∈ s.allEdges ++ s.declared ds, e.link ∈ (s.declareAll ds).links) →
        ClashFree (s.allEdges ++ s.declared ds)) := by
  have h := takes_declareAll hp
  exact ⟨h.kept hs.linked, h.clashFree hs.linked⟩

def crossing : Store :=
  Ontology.new.run (["a", "b_ISA_c", "a_ISA_b", "c"].map fun id => .addNode (Ontology.concept id []))

theorem reachable_crossing : crossing.Reachable :=
  Ontology.reachable_new.run _

theorem present_crossing : ∀ d ∈ [Declaration.isA "a" "b_ISA_c", .identity "a", .isA "a" "c"], d.Present crossing := by
  unfold Declaration.Present
  decide +kernel

theorem clashFree_crossing : ClashFree (crossing.allEdges ++
    crossing.declared [.isA "a" "b_ISA_c", .identity "a", .isA "a" "c"]) := by
  unfold ClashFree
  decide +kernel

theorem links_kept_crossing : crossing.Reachable ∧
    (∀ d ∈ [Declaration.isA "a" "b_ISA_c", .identity "a", .isA "a" "c"], d.Present crossing) ∧
    ClashFree (crossing.allEdges ++ crossing.declared [.isA "a" "b_ISA_c", .identity "a", .isA "a" "c"]) ∧
    ∀ e ∈ crossing.allEdges ++ crossing.declared [.isA "a" "b_ISA_c", .identity "a", .isA "a" "c"],
      e.link ∈ (crossing.declareAll [.isA "a" "b_ISA_c", .identity "a", .isA "a" "c"]).links :=
  ⟨reachable_crossing, present_crossing, clashFree_crossing,
    (links_kept_iff reachable_crossing present_crossing).1 clashFree_crossing⟩

/-- The second declaration takes the place of the first, with which it shares neither end. -/
theorem link_lost : crossing.Reachable ∧
    (∀ d ∈ [Declaration.isA "a" "b_ISA_c", .isA "a_ISA_b" "c"], d.Present crossing) ∧
    Ontology.isAEdge "a" "b_ISA_c" ∈ crossing.declared [.isA "a" "b_ISA_c", .isA "a_ISA_b" "c"] ∧
    (crossing.declareAll [.isA "a" "b_ISA_c", .isA "a_ISA_b" "c"]).links = [⟨"a_ISA_b", "IS_A", "c"⟩] ∧
    (Ontology.isAEdge "a" "b_ISA_c").link ∉ (crossing.declareAll [.isA "a" "b_ISA_c", .isA "a_ISA_b" "c"]).links := by
  refine ⟨reachable_crossing, ?_, List.mem_cons_self .., by decide +kernel, by decide +kernel⟩
  unfold Declaration.Present
  decide +kernel

end Store

/-! ## Ids without underscores -/

theorem cut_inj {c : Char} {a b r r' : List Char} (ha : c ∉ a) (hb : c ∉ b) (h : a ++ c :: r = b ++ c :: r') :
    a = b ∧ r = r' := by
  induction a generalizing b with
  | nil =>
    cases b with
    | nil => simpa using h
    | cons x b =>
      simp only [List.nil_append, List.cons_append, List.cons.injEq] at h
      exact absurd (List.mem_cons.mpr (.inl h.1)) hb
  | cons x a ih =>
    obtain ⟨hx, ha⟩ := List.ne_and_not_mem_of_not_mem_cons ha
    cases b with
    | nil =>
      simp only [List.nil_append, List.cons_append, List.cons.injEq] at h
      exact absurd h.1.symm hx
    | cons y b =>
      have hb := (List.ne_and_not_mem_of_not_mem_cons hb).2
      simp only [List.cons_append, List.cons.injEq] at h
      obtain ⟨hab, hr⟩ := ih ha hb h.2
      exact ⟨by rw [h.1, hab], hr⟩

namespace Contexts

theorem toList_relationId (source mark target : String) :
    (relationId source mark target).toList = source.toList ++ '_' :: (mark.toList ++ '_' :: target.toList) := by
  simp [relationId, String.toList_append]

theorem relationId_inj {source source' mark mark' target target' : String} (hs : '_' ∉ source.toList)
    (hs' : '_' ∉ source'.toList) (ht : '_' ∉ target.toList) (ht' : '_' ∉ target'.toList)
    (h : relationId source mark target = relationId source' mark' target') :
    source = source' ∧ mark = mark' ∧ target = target' := by
  have h := congrArg String.toList h
  rw [toList_relationId, toList_relationId] at h
  obtain ⟨hsource, h⟩ := cut_inj hs hs' h
  -- the type may have underscores of its own, so the target is cut off from behind
  have h := congrArg List.reverse h
  simp only [List.reverse_append, List.reverse_cons, List.append_assoc, List.singleton_append] at h
  obtain ⟨htarget, hmark⟩ := cut_inj (by simpa using ht) (by simpa using ht') h
  exact ⟨String.toList_inj.mp hsource, String.toList_inj.mp (List.reverse_inj.mp hmark),
    String.toList_inj.mp (List.reverse_inj.mp htarget)⟩

theorem relationId_ne_identity {source mark target id : String} (hs : '_' ∉ source.toList) (hid : '_' ∉ id.toList) :
    relationId source mark target ≠ "identity_" ++ id := by
  intro h
  have h := congrArg String.toList h
  have hi : ("identity_" ++ id).toList = "identity".toList ++ '_' :: id.toList := by
    rw [String.toList_append]
    rfl
  rw [toList_relationId, hi] at h
  obtain ⟨-, h⟩ := cut_inj hs (by decide) h
  exact hid (by rw [← h]; simp)

end Contexts

namespace Declaration

def isFor (l : Layer) : Declaration → Bool
  | .isA .. | .hasProperty .. | .relationship .. => l = .ontology
  | .relate .. | .refine .. => l = .contexts
  | .identity _ => true

def typeOf (l : Layer) (mark : String) : String :=
  if l = .ontology ∧ mark = "ISA" then Ontology.isA else mark

def Proper (l : Layer) (s : Store) (e : Edge) : Prop :=
  (∃ mark, e.id = Contexts.relationId e.source mark e.target ∧ e.type = typeOf l mark) ∨
    ∃ n, s.node? e.source = some n ∧ e.id = (loop e.source n).id ∧ e.link = (loop e.source n).link

theorem proper_written {l : Layer} {s : Store} {d : Declaration} (hd : d.isFor l = true) {e : Edge}
    (he : e ∈ d.written s) : Proper l s e := by
  -- every id is compared by its characters, as its parts are cut differently
  cases d with
  | isA source target =>
    obtain rfl : e = Ontology.isAEdge source target := List.mem_singleton.mp he
    have hl : l = .ontology := by simpa [isFor] using hd
    refine .inl ⟨"ISA", String.toList_inj.mp ?_, by simp [typeOf, hl, Ontology.isAEdge]⟩
    simp [Contexts.toList_relationId, Ontology.isAEdge]
  | hasProperty concept property =>
    obtain rfl : e = Ontology.hasPropertyEdge concept property := List.mem_singleton.mp he
    refine .inl ⟨Ontology.hasProperty, String.toList_inj.mp ?_, ?_⟩
    · simp [Contexts.toList_relationId, Ontology.hasPropertyEdge, Ontology.hasProperty]
    · simp [typeOf, Ontology.hasPropertyEdge, Ontology.hasProperty]
  | relationship source relation target =>
    have he : e = Ontology.domainEdge source relation ∨ e = Ontology.rangeEdge relation target := by
      simpa [written] using he
    rcases he with rfl | rfl
    · refine .inl ⟨Ontology.domain, String.toList_inj.mp ?_, ?_⟩
      · simp [Contexts.toList_relationId, Ontology.domainEdge, Ontology.domain]
      · simp [typeOf, Ontology.domainEdge, Ontology.domain]
    · refine .inl ⟨Ontology.range, String.toList_inj.mp ?_, ?_⟩
      · simp [Contexts.toList_relationId, Ontology.rangeEdge, Ontology.range]
      · simp [typeOf, Ontology.rangeEdge, Ontology.range]
  | relate source target type properties =>
    obtain rfl : e = Contexts.relation source target type properties := List.mem_singleton.mp he
    have hl : l = .contexts := by simpa [isFor] using hd
    exact .inl ⟨type, rfl, by simp [typeOf, hl, Contexts.relation]⟩
  | refine general specific properties =>
    obtain rfl : e = Contexts.refinement general specific properties := List.mem_singleton.mp he
    have hl : l = .contexts := by simpa [isFor] using hd
    exact .inl ⟨Contexts.refines, rfl, by simp [typeOf, hl, Contexts.refinement, Contexts.relation]⟩
  | identity id =>
    obtain ⟨n, hn, rfl⟩ := List.mem_map.mp he
    exact .inr ⟨n, Option.mem_toList.mp hn, rfl, rfl⟩

theorem clashFree_of_proper {l : Layer} {s : Store} {es : List Edge} (hp : ∀ e ∈ es, Proper l s e)
    (hn : ∀ e ∈ es, '_' ∉ e.source.toList ∧ '_' ∉ e.target.toList) : ClashFree es := by
  intro d hd e he hid
  obtain ⟨hds, hdt⟩ := hn d hd
  obtain ⟨hes, het⟩ := hn e he
  rcases hp d hd with ⟨mark, hdid, hdtype⟩ | ⟨n, hdn, hdid, hdl⟩
  · rcases hp e he with ⟨mark', heid, hetype⟩ | ⟨n', hen, heid, hel⟩
    · rw [hdid, heid] at hid
      obtain ⟨hsource, hmark, htarget⟩ := Contexts.relationId_inj hds hes hdt het hid
      simp [Edge.link, hsource, htarget, hdtype, hetype, hmark]
    · rw [hdid, heid] at hid
      exact absurd hid (Contexts.relationId_ne_identity hds hes)
  · rcases hp e he with ⟨mark', heid, hetype⟩ | ⟨n', hen, heid, hel⟩
    · rw [hdid, heid] at hid
      exact absurd hid.symm (Contexts.relationId_ne_identity hes hds)
    · have hsource : d.source = e.source := by
        rw [hdid, heid] at hid
        have hid := congrArg String.toList hid
        simp only [loop, String.toList_append] at hid
        exact String.toList_inj.mp (List.append_cancel_left hid)
      rw [hdl, hel, hsource]
      rw [hsource, hen] at hdn
      cases hdn
      rfl

end Declaration

namespace Store

/-- Where no id of a node has an underscore, the declarations of a layer keep each other's links. -/
theorem links_kept_of_plain {s : Store} (hs : s.Reachable) (hn : ∀ n ∈ s.allNodes, '_' ∉ n.id.toList) {l : Layer}
    (he : ∀ e ∈ s.allEdges, Declaration.Proper l s e) {ds : List Declaration} (hl : ∀ d ∈ ds, d.isFor l = true)
    (hp : ∀ d ∈ ds, d.Present s) : ∀ e ∈ s.allEdges ++ s.declared ds, e.link ∈ (s.declareAll ds).links := by
  have hplain : ∀ id, s.hasNode id = true → '_' ∉ id.toList := by
    intro id hid
    obtain ⟨n, hm, rfl⟩ := hs.linked.hasNode_iff.mp hid
    exact hn n hm
  refine (takes_declareAll hp).kept hs.linked (Declaration.clashFree_of_proper (l := l) (s := s) ?_ ?_)
  · intro e hm
    rcases List.mem_append.mp hm with hm | hm
    · exact he e hm
    · obtain ⟨d, hd, hm⟩ := List.mem_flatMap.mp hm
      exact Declaration.proper_written (hl d hd) hm
  · intro e hm
    rcases List.mem_append.mp hm with hm | hm
    · exact ⟨hplain _ (hs.linked.source e hm), hplain _ (hs.linked.target e hm)⟩
    · obtain ⟨d, hd, hm⟩ := List.mem_flatMap.mp hm
      obtain ⟨hsource, htarget⟩ := hp d hd e hm
      exact ⟨hplain _ hsource, hplain _ htarget⟩

end Store

end TriGraph
