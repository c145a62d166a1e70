import TriGraph.Proofs.Store.Integrity
import TriGraph.Proofs.Trinity.History

/-!
# Answers to queries

While a query is answered, the memo grows with every test of relevance. Each of the tests is steady, and none of them
fails while the adjunctions that they ask for are registered; so the answer is that of a plain filter.
-/

namespace TriGraph

namespace Knowledge

/-! ## Questions that never fail -/

def Sure {α : Type} (q : Recall α) : Prop :=
  ∀ m, ∃ x m', q.run m = (.ok x, m')

namespace Sure

variable {α β : Type}

theorem pure (x : α) : Sure (pure x : Recall α) :=
  fun m => ⟨x, m, rfl⟩

theorem bind {q : Recall α} {f : α → Recall β} (hq : Sure q) (hf : ∀ x, Sure (f x)) : Sure (q >>= f) := by
  intro m
  obtain ⟨x, m', hx⟩ := hq m
  obtain ⟨y, m'', hy⟩ := hf x m'
  refine ⟨y, m'', ?_⟩
  rw [run_bind, hx]
  exact hy

end Sure

/-- Adjunctions are registered under the names of those that are built in. -/
def Equipped (k : Knowledge) : Prop :=
  ∀ name ∈ Builtin.adjunctions.map (·.name), (k.adjunction? name).isSome

section
variable {k : Knowledge} (he : k.Equipped)
include he

theorem sure_mapped? {name : String} (hn : name ∈ Builtin.adjunctions.map (·.name)) (l : Layer) (id : String) :
    Sure (k.mapped? name l id) := by
  obtain ⟨a, ha⟩ := Option.isSome_iff_exists.mp (he name hn)
  unfold mapped? require
  rw [ha]
  exact fun m => ⟨_, _, rfl⟩

theorem sure_applicable (concept context : String) : Sure (k.applicable concept context) := by
  unfold applicable
  split
  · refine (sure_mapped? he (by decide) _ _).bind fun reached => ?_
    split
    · exact .pure true
    refine (sure_mapped? he (by decide) _ _).bind fun reached => ?_
    split
    · exact .pure true
    · exact .pure _
  · exact .pure false

theorem sure_relevant (inst context : String) : Sure (k.relevant inst context) := by
  unfold relevant
  split
  · unfold instanceIsRelevant
    split
    · exact .pure true
    refine (sure_mapped? he (by decide) _ _).bind fun reached => ?_
    split
    · exact .pure true
    exact (sure_mapped? he (by decide) _ _).bind fun exemplar => .pure _
  · exact .pure false

end

/-! ## Settled questions -/

/-- The answer is the same with every memo that agrees with the given one, and such a memo is left. -/
structure Settled {α : Type} (k : Knowledge) (m : Memo) (q : Recall α) (x : α) : Prop where
  answers : ∀ m', Agree k m m' → (q.run m').1 = .ok x
  keeps : ∀ m', Agree k m m' → Agree k m (q.run m').2

namespace Settled

variable {α β : Type} {k : Knowledge} {m : Memo}

theorem pure (x : α) : Settled k m (pure x : Recall α) x :=
  ⟨fun _ _ => rfl, fun _ h => h⟩

theorem bind {q : Recall α} {f : α → Recall β} {x : α} {y : β} (hq : Settled k m q x) (hf : Settled k m (f x) y) :
    Settled k m (q >>= f) y := by
  have hrun : ∀ m', Agree k m m' → (q >>= f).run m' = (f x).run (q.run m').2 := by
    intro m' h
    have ha := hq.answers m' h
    rw [run_bind]
    generalize q.run m' = r at ha
    obtain ⟨r, m''⟩ := r
    cases ha
    rfl
  refine ⟨fun m' h => ?_, fun m' h => ?_⟩
  · rw [hrun m' h]
    exact hf.answers _ (hq.keeps m' h)
  · rw [hrun m' h]
    exact hf.keeps _ (hq.keeps m' h)

theorem of_steady {q : Recall α} (hq : Steady k q) {x : α} (h : (q.run m).1 = .ok x) : Settled k m q x :=
  ⟨fun m' ha => (hq.answers m' m ha.symm).trans h, fun m' ha => ha.trans (hq.keeps m')⟩

theorem filterAuxM {p : α → Recall Bool} {b : α → Bool} {xs : List α} (hp : ∀ x ∈ xs, Settled k m (p x) (b x))
    (acc : List α) : Settled k m (xs.filterAuxM p acc) ((xs.filter b).reverse ++ acc) := by
  induction xs generalizing acc with
  | nil => exact .pure acc
  | cons x xs ih =>
    obtain ⟨hx, hp⟩ := List.forall_mem_cons.mp hp
    refine hx.bind ?_
    cases hb : b x with
    | true =>
      have := ih hp (x :: acc)
      simpa [hb] using this
    | false =>
      have := ih hp acc
      simpa [hb] using this

theorem filterM {p : α → Recall Bool} {b : α → Bool} {xs : List α} (hp : ∀ x ∈ xs, Settled k m (p x) (b x)) :
    Settled k m (xs.filterM p) (xs.filter b) := by
  have h := (filterAuxM hp []).bind (f := fun ys => Pure.pure ys.reverse) (.pure _)
  rw [List.append_nil, List.reverse_reverse] at h
  exact h

end Settled

/-! ## Results -/

def found (k : Knowledge) (q : Query) : List Entity :=
  match q.form with
  | .conceptInstances => (Instances.ofConcept q.subject k.graphs.instances).map .node
  | .relations => (Instances.relationsOfType q.subject k.graphs.instances).map .edge

def throughout (b : String → Bool) : Entity → Bool
  | .node n => b n.id
  | .edge e => b e.source && b e.target

section
variable {k : Knowledge} {m : Memo} (context : Option Node)

theorem settled_resultsIn {b : String → Bool} (h : ∀ inst, Settled k m (k.relevantIn context inst) (b inst))
    (q : Query) : Settled k m (k.resultsIn q context) ((k.found q).filter (throughout b)) := by
  unfold resultsIn found
  cases q.form with
  | conceptInstances =>
    have hn : Settled k m ((Instances.ofConcept q.subject k.graphs.instances).filterM fun n => k.relevantIn context n.id)
        ((Instances.ofConcept q.subject k.graphs.instances).filter fun n => b n.id) := .filterM fun n _ => h n.id
    have := hn.bind (f := fun ns => Pure.pure (ns.map Entity.node)) (.pure _)
    simpa [List.filter_map, Function.comp_def, throughout] using this
  | relations =>
    have hboth : ∀ e : Edge, Settled k m (k.relationRelevantIn context e) (b e.source && b e.target) := by
      intro e
      refine (h e.source).bind ?_
      cases b e.source with
      | true => exact h e.target
      | false => exact .pure false
    have he : Settled k m ((Instances.relationsOfType q.subject k.graphs.instances).filterM (k.relationRelevantIn context))
        ((Instances.relationsOfType q.subject k.graphs.instances).filter fun e => b e.source && b e.target) :=
      .filterM fun e _ => hboth e
    have := he.bind (f := fun es => Pure.pure (es.map Entity.edge)) (.pure _)
    simpa [List.filter_map, Function.comp_def, throughout] using this

theorem settled_answerFor {q : Query} {b : String → Bool} (ha : Settled k m (k.applicableIn q context) true)
    (h : ∀ inst, Settled k m (k.relevantIn context inst) (b inst)) (subject : Node) :
    Settled k m (k.answerFor q subject context)
      (.success subject context ((k.found q).filter (throughout b))) := by
  refine ha.bind ?_
  rw [if_pos rfl]
  exact (settled_resultsIn context h q).bind (.pure _)

theorem settled_answerFor_inapplicable {q : Query} (ha : Settled k m (k.applicableIn q context) false)
    (subject : Node) : Settled k m (k.answerFor q subject context)
      (.inapplicable (inapplicableSubject q ((context.map (·.id)).getD ""))) := by
  refine ha.bind ?_
  rw [if_neg Bool.false_ne_true]
  exact .pure _

end

end Knowledge

namespace Query

def effective (q : Query) (context : Option String) : Option String :=
  match context, q.context with
  | some id, _ => if id = "" then none else some id
  | none, some id => if id = "" then none else some id
  | none, none => none

theorem contextOf?_eq (q : Query) (context : Option String) :
    Knowledge.contextOf? q context = q.effective context := by
  have hf : ∀ id : String, (some id).filter (!·.isEmpty) = if id = "" then none else some id := by
    intro id
    by_cases h : id = ""
    · simp [h]
    · simp [h]
  unfold Knowledge.contextOf? effective
  cases context with
  | some id => exact hf id
  | none =>
    cases q.context with
    | some id => exact hf id
    | none => rfl

end Query

namespace Trinity

def affirms (t : Trinity) (q : Knowledge → Knowledge.Recall Bool) : Bool :=
  match (t.ask q).1 with
  | .ok b => b
  | .error _ => false

def passes (t : Trinity) (context : String) : Entity → Bool
  | .node n => t.affirms (·.relevant n.id context)
  | .edge e => t.affirms (·.relevant e.source context) && t.affirms (·.relevant e.target context)

def Unknown (t : Trinity) (q : Query) (context : Option String) : Prop :=
  (∃ id, q.effective context = some id ∧ t.knowledge.node? .contexts id = none) ∨
    t.knowledge.node? .ontology q.subject = none

def Inapplicable (t : Trinity) (q : Query) (context : Option String) : Prop :=
  ∃ id, q.effective context = some id ∧ (t.ask (·.applicable q.subject id)).1 = .ok false

theorem filter_throughout_true (es : List Entity) : es.filter (Knowledge.throughout fun _ => true) = es := by
  refine List.filter_eq_self.mpr fun e _ => ?_
  cases e <;> rfl

section
variable {t : Trinity} {q : Query} {context : Option String}

theorem answer_of_unknown (h : t.Unknown q context) :
    ∃ message, t.knowledge.answer q context = pure (.error message) := by
  unfold Knowledge.answer
  rw [Query.contextOf?_eq]
  rcases h with ⟨id, hc, hn⟩ | hs
  · simp only [hc, hn]
    exact ⟨_, rfl⟩
  · simp only [hs]
    split
    · split
      · exact ⟨_, rfl⟩
      · exact ⟨_, rfl⟩
    · exact ⟨_, rfl⟩

theorem answer_of_known (h : ¬t.Unknown q context) :
    ∃ subject, t.knowledge.node? .ontology q.subject = some subject ∧
      ((q.effective context = none ∧ t.knowledge.answer q context = t.knowledge.answerFor q subject none) ∨
        ∃ id c, q.effective context = some id ∧ t.knowledge.node? .contexts id = some c ∧
          t.knowledge.answer q context = t.knowledge.answerFor q subject (some c)) := by
  obtain ⟨hcontext, hsubject⟩ := not_or.mp h
  obtain ⟨subject, hs⟩ := Option.ne_none_iff_exists'.mp hsubject
  refine ⟨subject, hs, ?_⟩
  unfold Knowledge.answer
  rw [Query.contextOf?_eq]
  cases hc : q.effective context with
  | none =>
    left
    simp only [hs]
    exact ⟨trivial, trivial⟩
  | some id =>
    right
    have hn : t.knowledge.node? .contexts id ≠ none := fun hn => hcontext ⟨id, hc, hn⟩
    obtain ⟨c, hn⟩ := Option.ne_none_iff_exists'.mp hn
    refine ⟨id, c, rfl, hn, ?_⟩
    simp only [hn, hs]

theorem answer_plain {subject : Node} (hs : t.knowledge.node? .ontology q.subject = some subject) :
    (t.ask (·.answer { q with context := none } none)).1 = .ok (.success subject none (t.knowledge.found q)) := by
  have ha : t.knowledge.answer { q with context := none } none =
      t.knowledge.answerFor { q with context := none } subject none := by
    unfold Knowledge.answer Knowledge.contextOf?
    simp [hs]
  have h := Knowledge.settled_answerFor (k := t.knowledge) (m := t.memo) (q := { q with context := none }) none
    (.pure true) (fun _ => .pure true) subject
  have := h.answers t.memo .refl
  rw [← ha, filter_throughout_true] at this
  exact this

theorem settled_relevant (ht : t.Reachable) (he : t.knowledge.Equipped) (inst context : String) :
    t.knowledge.Settled t.memo (t.knowledge.relevant inst context) (t.affirms (·.relevant inst context)) := by
  refine .of_steady (Knowledge.steady_relevant ht.named inst context) ?_
  obtain ⟨b, m, hb⟩ := Knowledge.sure_relevant he inst context t.memo
  simp [affirms, ask, hb]

theorem settled_applicable (ht : t.Reachable) (he : t.knowledge.Equipped) (concept context : String) :
    ∃ b, (t.ask (·.applicable concept context)).1 = .ok b ∧
      t.knowledge.Settled t.memo (t.knowledge.applicable concept context) b := by
  obtain ⟨b, m, hb⟩ := Knowledge.sure_applicable he concept context t.memo
  have hb : ((t.knowledge.applicable concept context).run t.memo).1 = .ok b := by rw [hb]
  exact ⟨b, hb, .of_steady (Knowledge.steady_applicable ht.named concept context) hb⟩

end

/-- What is unknown or does not apply has no results; else the results are those without a context, as far as they are
relevant in the context if there is one. -/
theorem answer_spec {t : Trinity} (ht : t.Built) (he : t.knowledge.Equipped) (q : Query) (context : Option String) :
    ∃ env, (t.ask (·.answer q context)).1 = .ok env ∧
      (t.Unknown q context → env.status = .error ∧ env.results = []) ∧
      (¬t.Unknown q context → t.Inapplicable q context → env.status = .inapplicable ∧ env.results = []) ∧
      (¬t.Unknown q context → ¬t.Inapplicable q context →
        env.status = .success ∧ env.count = some env.results.length ∧
          ∃ plain, (t.ask (·.answer { q with context := none } none)).1 = .ok plain ∧ plain.status = .success ∧
            env.results = match q.effective context with
              | none => plain.results
              | some id => plain.results.filter (t.passes id)) := by
  by_cases hu : t.Unknown q context
  · obtain ⟨message, ha⟩ := answer_of_unknown hu
    refine ⟨.error message, ?_, fun _ => ⟨rfl, rfl⟩, fun h => absurd hu h, fun h => absurd hu h⟩
    change ((t.knowledge.answer q context).run t.memo).1 = _
    rw [ha]
    rfl
  obtain ⟨subject, hs, ⟨hc, ha⟩ | ⟨id, c, hc, hn, ha⟩⟩ := answer_of_known hu
  · have hset := Knowledge.settled_answerFor (k := t.knowledge) (m := t.memo) (q := q) none (.pure true)
      (fun _ => .pure true) subject
    have henv := hset.answers t.memo .refl
    rw [← ha, filter_throughout_true] at henv
    refine ⟨_, henv, fun h => absurd h hu, ?_, ?_⟩
    · rintro - ⟨id, hid, -⟩
      rw [hc] at hid
      cases hid
    · intro _ _
      refine ⟨rfl, rfl, _, answer_plain hs, rfl, ?_⟩
      rw [hc]
  · have hid : c.id = id := (((ht.store .contexts).linked.nodes).get?_eq_some.mp hn).2
    have hrel : ∀ inst, t.knowledge.Settled t.memo (t.knowledge.relevantIn (some c) inst)
        (t.affirms (·.relevant inst id)) := by
      intro inst
      rw [← hid]
      exact settled_relevant ht.reachable he inst c.id
    obtain ⟨b, hb, hset⟩ := settled_applicable ht.reachable he q.subject c.id
    rw [hid] at hb
    cases b with
    | true =>
      have henv := (Knowledge.settled_answerFor (some c) hset hrel subject).answers t.memo .refl
      rw [← ha] at henv
      refine ⟨_, henv, fun h => absurd h hu, ?_, ?_⟩
      · rintro - ⟨id', hid', hf⟩
        rw [hc] at hid'
        cases hid'
        rw [hb] at hf
        cases hf
      · intro _ _
        refine ⟨rfl, rfl, _, answer_plain hs, rfl, ?_⟩
        rw [hc]
        refine List.filter_congr fun e _ => ?_
        cases e <;> rfl
    | false =>
      have henv := (Knowledge.settled_answerFor_inapplicable (some c) hset subject).answers t.memo .refl
      rw [← ha] at henv
      refine ⟨_, henv, fun h => absurd h hu, fun _ _ => ⟨rfl, rfl⟩, ?_⟩
      intro _ h
      exact absurd ⟨id, hc, hb⟩ h

def library : Trinity :=
  { (((Trinity.new "Library").mapStore .ontology (·.run [.addNode (Ontology.concept "Author" [])])).mapStore .contexts
      (·.run [.addNode (Contexts.temporal "renaissance" (.int 1300) (.int 1600) [])])).mapStore .instances
        (·.run [.addNode (Instances.entity "shakespeare" "Author" [("timestamp", .int 1600)]),
          .addNode (Instances.entity "hemingway" "Author" [("timestamp", .int 1952)])]) with
    memo := [(⟨Builtin.contextualization, .left, "hemingway"⟩, "renaissance")] }

theorem built_library : library.Built :=
  ((((Built.new "Library").run .ontology _).run .contexts _).run .instances _).memo _

theorem equipped_library : library.knowledge.Equipped := by
  unfold Knowledge.Equipped
  decide +kernel

theorem known_library : ¬library.Unknown ⟨.conceptInstances, "Author", none⟩ (some "renaissance") := by
  rintro (⟨id, hid, hn⟩ | hs)
  · cases hid
    cases hn
  · cases hs

theorem applicable_library : ¬library.Inapplicable ⟨.conceptInstances, "Author", none⟩ (some "renaissance") := by
  rintro ⟨id, hid, hf⟩
  cases hid
  have ht : library.affirms (·.applicable "Author" "renaissance") = true := by decide +kernel
  simp [affirms, hf] at ht

theorem answer_spec_library : library.Built ∧ library.knowledge.Equipped ∧
    ∃ env, (library.ask (·.answer ⟨.conceptInstances, "Author", none⟩ (some "renaissance"))).1 = .ok env ∧
      env.status = .success ∧ env.count = some env.results.length ∧
      ∃ plain, (library.ask (·.answer ⟨.conceptInstances, "Author", none⟩ none)).1 = .ok plain ∧
        plain.status = .success ∧ env.results = plain.results.filter (library.passes "renaissance") := by
  obtain ⟨env, henv, -, -, hsuccess⟩ := answer_spec built_library equipped_library
    ⟨.conceptInstances, "Author", none⟩ (some "renaissance")
  exact ⟨built_library, equipped_library, env, henv, hsuccess known_library applicable_library⟩

-- the memo counts for more than the time that hemingway lived in
example : ((library.ask (·.answer ⟨.conceptInstances, "Author", none⟩ (some "renaissance"))).1.toOption.map
    Envelope.resultIds) = some ["shakespeare", "hemingway"] := by
  decide +kernel

end Trinity

end TriGraph
