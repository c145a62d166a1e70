import TriGraph.Knowledge.Answer
import TriGraph.Knowledge.Traversal
import TriGraph.Proofs.Catalog
import TriGraph.Proofs.Knowledge.Memo
import TriGraph.Trinity

/-!
# Reads

The questions that leave the graphs alone are steady. So reads add to the memo but never change each other's answers.
-/

namespace TriGraph

namespace Knowledge

/-! ## The questions are steady -/

section
variable {k : Knowledge} (hk : k.Named)
include hk

theorem steady_conceptApplies (concept context : Node) : Steady k (k.conceptApplies concept context) := by
  refine (Steady.mapped? hk _ _ _).bind fun reached => ?_
  split
  · exact .pure true
  refine (Steady.mapped? hk _ _ _).bind fun reached => ?_
  split
  · exact .pure true
  · exact .pure _

theorem steady_applicable (concept context : String) : Steady k (k.applicable concept context) := by
  unfold applicable
  split
  · exact steady_conceptApplies hk _ _
  · exact .pure false

theorem steady_instanceIsRelevant (inst context : Node) : Steady k (k.instanceIsRelevant inst context) := by
  unfold instanceIsRelevant
  split
  · exact .pure true
  refine (Steady.mapped? hk _ _ _).bind fun reached => ?_
  split
  · exact .pure true
  exact (Steady.mapped? hk _ _ _).bind fun exemplar => .pure _

theorem steady_relevant (inst context : String) : Steady k (k.relevant inst context) := by
  unfold relevant
  split
  · exact steady_instanceIsRelevant hk _ _
  · exact .pure false

theorem steady_relevantIn (context : Option Node) (inst : String) : Steady k (k.relevantIn context inst) := by
  cases context with
  | none => exact .pure true
  | some c => exact steady_relevant hk inst c.id

theorem steady_relationRelevantIn (context : Option Node) (e : Edge) :
    Steady k (k.relationRelevantIn context e) := by
  refine (steady_relevantIn hk context e.source).bind fun b => ?_
  split
  · exact steady_relevantIn hk context e.target
  · exact .pure false

theorem steady_resultsIn (q : Query) (context : Option Node) : Steady k (k.resultsIn q context) := by
  unfold resultsIn
  split
  · exact (Steady.filterM (fun n : Node => steady_relevantIn hk context n.id) _).bind fun _ => .pure _
  · exact (Steady.filterM (steady_relationRelevantIn hk context) _).bind fun _ => .pure _

theorem steady_applicableIn (q : Query) (context : Option Node) : Steady k (k.applicableIn q context) := by
  cases context with
  | none => exact .pure true
  | some c => exact steady_applicable hk q.subject c.id

theorem steady_answerFor (q : Query) (subject : Node) (context : Option Node) :
    Steady k (k.answerFor q subject context) := by
  refine (steady_applicableIn hk q context).bind fun b => ?_
  split
  · exact (steady_resultsIn hk q context).bind fun _ => .pure _
  · exact .pure _

theorem steady_answer (q : Query) (context : Option String) : Steady k (k.answer q context) := by
  unfold answer
  split
  · split
    · exact .pure _
    split
    · exact .pure _
    · exact steady_answerFor hk q _ _
  · split
    · exact .pure _
    · exact steady_answerFor hk q _ _

theorem steady_entitiesOf (concept : String) (context : Option String) :
    Steady k (k.entitiesOf concept context) := by
  cases context with
  | none => exact .pure _
  | some c => exact .filterM (fun n : Node => steady_relevant hk n.id c) _

theorem steady_follow (plan : List TraversalStep) (l : Layer) (id : String) :
    Steady k (k.follow l id plan) := by
  induction plan generalizing l id with
  | nil => exact .pure []
  | cons s plan ih =>
    unfold follow
    refine .require s.adjunction fun a ha => ?_
    split
    · exact .throw _
    refine (Steady.apply hk ha s.side id).bind fun next => ?_
    split
    · exact .pure []
    · exact (ih _ _).bind fun rest => .pure _

theorem steady_traverse (graph id : String) (plan : List TraversalStep) :
    Steady k (k.traverse graph id plan) := by
  unfold traverse
  refine Steady.bind ?_ fun l => ?_
  · cases layer graph with
    | error e => exact .throw e
    | ok l => exact .pure l
  split
  · exact (steady_follow hk plan l id).bind fun rest => .pure _
  · exact .pure []

end

end Knowledge

/-! ## Runs of reads -/

inductive Read where
  | apply (adjunction : String) (side : Adjoint) (id : String)
  | traverse (graph id : String) (plan : List TraversalStep)
  | applicable (concept context : String)
  | relevant (inst context : String)
  | answer (q : Query) (context : Option String)
  | entities (concept : String) (context : Option String)

namespace Read

abbrev Reply : Read → Type
  | .apply .. => Option String
  | .traverse .. => List Waypoint
  | .applicable .. => Bool
  | .relevant .. => Bool
  | .answer .. => Envelope
  | .entities .. => List Node

def question (k : Knowledge) : (r : Read) → Knowledge.Recall r.Reply
  | .apply adjunction side id => do k.apply (← k.require adjunction) side id
  | .traverse graph id plan => k.traverse graph id plan
  | .applicable concept context => k.applicable concept context
  | .relevant inst context => k.relevant inst context
  | .answer q context => k.answer q context
  | .entities concept context => k.entitiesOf concept context

theorem steady {k : Knowledge} (hk : k.Named) (r : Read) : k.Steady (r.question k) := by
  cases r with
  | apply adjunction side id => exact .require adjunction fun _ ha => .apply hk ha side id
  | traverse graph id plan => exact Knowledge.steady_traverse hk graph id plan
  | applicable concept context => exact Knowledge.steady_applicable hk concept context
  | relevant inst context => exact Knowledge.steady_relevant hk inst context
  | answer q context => exact Knowledge.steady_answer hk q context
  | entities concept context => exact Knowledge.steady_entitiesOf hk concept context

end Read

namespace Trinity

def read (r : Read) (t : Trinity) : Except Knowledge.Error r.Reply × Trinity :=
  t.ask fun k => r.question k

def reads (rs : List Read) (t : Trinity) : Trinity :=
  rs.foldl (fun t r => (t.read r).2) t

section
variable {t : Trinity} {name : String} {a : Adjunction} (ha : t.knowledge.adjunction? name = some a) (side : Adjoint)
  (id : String)
include ha

theorem read_apply_eq : t.read (.apply name side id) =
    (.ok (t.knowledge.reply t.memo a side id), { t with memo := (a.apply side t.graphs id t.memo).2 }) := by
  have hreq : t.knowledge.require name = pure a := by
    unfold Knowledge.require
    rw [ha]
  have hrun : ((Read.apply name side id).question t.knowledge).run t.memo =
      (.ok (t.knowledge.reply t.memo a side id), (a.apply side t.graphs id t.memo).2) := by
    change (t.knowledge.require name >>= fun a => t.knowledge.apply a side id).run t.memo = _
    rw [hreq, pure_bind]
    rfl
  unfold read ask
  rw [hrun]

theorem read_apply : (t.read (.apply name side id)).1 = .ok (t.knowledge.reply t.memo a side id) :=
  congrArg Prod.fst (read_apply_eq ha side id)

end

/-- Whatever the graphs hold, whatever is registered, and whatever the memo remembers. -/
inductive Reachable : Trinity → Prop where
  | start (name : String) : Reachable { name }
  | store {t : Trinity} (h : Reachable t) (l : Layer) (s : Store) : Reachable (t.setStore l s)
  | register {t : Trinity} (h : Reachable t) (a : Adjunction) : Reachable (t.register a)
  | memo {t : Trinity} (h : Reachable t) (m : Memo) : Reachable { t with memo := m }

theorem Reachable.named {t : Trinity} (h : t.Reachable) : t.knowledge.Named := by
  induction h with
  | start name =>
    intro n a ha
    cases ha
  | store _ l s ih => exact ih
  | memo _ m ih => exact ih
  | @register t _ b ih =>
    intro n a ha
    by_cases hn : n = b.name
    · subst hn
      have : some b = some a := Catalog.get?_insert_self.symm.trans ha
      cases this
      rfl
    · exact ih n a ((Catalog.get?_insert_ne hn).symm.trans ha)

section
variable {t : Trinity} (hk : t.knowledge.Named)
include hk

theorem reads_spec (rs : List Read) :
    (t.reads rs).knowledge = t.knowledge ∧ t.knowledge.Agree t.memo (t.reads rs).memo := by
  induction rs generalizing t with
  | nil => exact ⟨rfl, .refl⟩
  | cons r rs ih =>
    have hr : t.knowledge.Agree t.memo (t.read r).2.memo := (r.steady hk).keeps t.memo
    obtain ⟨hs, ha⟩ := ih (t := (t.read r).2) hk
    exact ⟨hs, hr.trans ha⟩

end

/-- Reads never change each other's answers. -/
theorem read_after_reads {t : Trinity} (h : t.Reachable) (rs₁ rs₂ : List Read) (r : Read) :
    ((t.reads rs₁).read r).1 = ((t.reads rs₂).read r).1 ∧
      (t.reads rs₁).knowledge = t.knowledge ∧ ((t.reads rs₁).read r).2.knowledge = t.knowledge := by
  have hk := h.named
  obtain ⟨h₁, ha₁⟩ := reads_spec hk rs₁
  obtain ⟨h₂, ha₂⟩ := reads_spec hk rs₂
  have hask : ∀ u : Trinity, u.knowledge = t.knowledge → (u.read r).1 = ((r.question t.knowledge).run u.memo).1 := by
    intro u hu
    rw [← hu]
    rfl
  refine ⟨?_, h₁, h₁⟩
  rw [hask _ h₁, hask _ h₂]
  exact (r.steady hk).answers _ _ (ha₁.symm.trans ha₂)

def copying : Adjunction where
  name := "copying"
  source := .ontology
  target := .instances
  left _ n := some ("copy of " ++ n.id)
  right _ n := n.property? Instances.conceptId >>= Value.text?

def stale : Trinity :=
  { (({ name := "t" } : Trinity).register copying).setStore .ontology
      (Ontology.new.addNode (Ontology.concept "Author" [])) with
    memo := [(⟨"copying", .left, "Gone"⟩, "copy of Gone")] }

theorem reachable_stale : stale.Reachable :=
  (((Reachable.start "t").register copying).store .ontology _).memo _

theorem read_after_reads_stale :
    ((stale.reads [.apply "copying" .left "Gone", .traverse "ontological" "Author" [⟨"copying", .left⟩]]).read
        (.apply "copying" .left "Author")).1 = ((stale.reads []).read (.apply "copying" .left "Author")).1 ∧
      (stale.reads [.apply "copying" .left "Gone",
        .traverse "ontological" "Author" [⟨"copying", .left⟩]]).knowledge = stale.knowledge ∧
      ((stale.reads [.apply "copying" .left "Gone", .traverse "ontological" "Author" [⟨"copying", .left⟩]]).read
        (.apply "copying" .left "Author")).2.knowledge = stale.knowledge :=
  read_after_reads reachable_stale _ _ _

end Trinity

end TriGraph
