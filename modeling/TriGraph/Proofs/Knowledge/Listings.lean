import TriGraph.Proofs.Knowledge.Answers

/-!
# Listings

The entities of a concept are the results of a query for its instances, or are listed directly. The two differ on the
empty id, which a query takes for no context at all: listed directly, only what is relevant in the context with that
id is kept.
-/

namespace TriGraph

namespace Knowledge

variable {k : Knowledge} {m : Memo}

/-! ## Questions that have been answered -/

theorem bind_answers {α β : Type} {q : Recall α} {f : α → Recall β} {y : β} :
    ((q >>= f).run m).1 = .ok y ↔ ∃ x, (q.run m).1 = .ok x ∧ ((f x).run (q.run m).2).1 = .ok y := by
  rw [run_bind]
  generalize q.run m = r
  obtain ⟨e | x, m'⟩ := r
  · simp
  · simp

section
variable {α : Type} {p : α → Recall Bool} (hp : ∀ x, Steady k (p x)) {xs ys : List α}
include hp

theorem answers_of_filterAuxM {acc : List α} (h : ((xs.filterAuxM p acc).run m).1 = .ok ys) :
    ∀ x ∈ xs, ∃ b, ((p x).run m).1 = .ok b := by
  induction xs generalizing m acc with
  | nil => exact List.forall_mem_nil _
  | cons x xs ih =>
    obtain ⟨b, hb, h⟩ := bind_answers.mp h
    refine List.forall_mem_cons.mpr ⟨⟨b, hb⟩, fun y hy => ?_⟩
    -- the rest is tested with the memo that the first test leaves
    obtain ⟨b', hb'⟩ := ih h y hy
    exact ⟨b', ((hp y).answers _ _ ((hp x).keeps m)).trans hb'⟩

theorem filterM_of_all (h : ∀ x ∈ xs, ((p x).run m).1 = .ok true) : ((xs.filterM p).run m).1 = .ok xs := by
  have hset := Settled.filterM (b := fun _ => true) fun x hx => .of_steady (hp x) (h x hx)
  rw [hset.answers m .refl, List.filter_true]

theorem all_of_filterM (h : ((xs.filterM p).run m).1 = .ok ys) (hlen : ys.length = xs.length) :
    ∀ x ∈ xs, ((p x).run m).1 = .ok true := by
  obtain ⟨zs, hzs, -⟩ := bind_answers.mp h
  have htests : ∀ x ∈ xs, ((p x).run m).1 = .ok (((p x).run m).1.toOption.getD false) := by
    intro x hx
    obtain ⟨b, hb⟩ := answers_of_filterAuxM hp hzs x hx
    rw [hb]
    rfl
  -- every test has an answer, so the filter is a plain one, and one that drops nothing
  have hset := Settled.filterM fun x hx => .of_steady (hp x) (htests x hx)
  rw [← Except.ok.inj ((hset.answers m .refl).symm.trans h), List.length_filter_eq_length_iff] at hlen
  intro x hx
  rw [htests x hx, hlen x hx]

end

/-! ## Results of answers -/

theorem results_of_answerFor (hk : k.Named) {q : Query} {subject : Node} {context : Option Node} {env : Envelope}
    (h : ((k.answerFor q subject context).run m).1 = .ok env) (hs : env.status = .success) :
    ((k.resultsIn q context).run m).1 = .ok env.results := by
  obtain ⟨b, -, h⟩ := bind_answers.mp h
  have hkeep := (steady_applicableIn hk q context).keeps m
  rw [(steady_resultsIn hk q context).answers _ _ hkeep]
  cases b with
  | false =>
    cases h
    cases hs
  | true =>
    obtain ⟨es, hes, h⟩ := bind_answers.mp h
    cases h
    exact hes

theorem entitiesOf_of_resultsIn {concept : String} {named : Option String} {context : Option Node} {es : List Entity}
    (h : ((k.resultsIn ⟨.conceptInstances, concept, named⟩ context).run m).1 = .ok es) :
    ∃ ns, ((k.entitiesOf concept (context.map (·.id))).run m).1 = .ok ns ∧ es = ns.map .node := by
  cases context with
  | none =>
    have hset := settled_resultsIn (k := k) (m := m) none (fun _ => .pure true) ⟨.conceptInstances, concept, named⟩
    rw [hset.answers m .refl, Trinity.filter_throughout_true] at h
    exact ⟨_, rfl, (Except.ok.inj h).symm⟩
  | some c =>
    obtain ⟨ns, hns, h⟩ := bind_answers.mp h
    exact ⟨ns, hns, (Except.ok.inj h).symm⟩

end Knowledge

theorem Query.effective_unnamed (form : QueryForm) (subject : String) (context : Option String) :
    Query.effective ⟨form, subject, none⟩ context = context.filter (· ≠ "") := by
  cases context with
  | none => rfl
  | some id => by_cases h : id = "" <;> simp [Query.effective, Option.filter, h]

namespace Trinity

variable {t : Trinity}

theorem results_of_answer (ht : t.Built) {q : Query} {context : Option String} {env : Envelope}
    (h : (t.ask (·.answer q context)).1 = .ok env) (hs : env.status = .success) :
    ∃ c : Option Node, c.map (·.id) = q.effective context ∧
      ((t.knowledge.resultsIn q c).run t.memo).1 = .ok env.results := by
  change ((t.knowledge.answer q context).run t.memo).1 = _ at h
  have hknown : ¬t.Unknown q context := by
    intro hu
    obtain ⟨message, ha⟩ := answer_of_unknown hu
    rw [ha] at h
    cases h
    cases hs
  obtain ⟨subject, -, ⟨hc, ha⟩ | ⟨id, c, hc, hn, ha⟩⟩ := answer_of_known hknown
  · rw [ha] at h
    exact ⟨none, hc.symm, Knowledge.results_of_answerFor ht.reachable.named h hs⟩
  · have hid : c.id = id := (((ht.store .contexts).linked.nodes).get?_eq_some.mp hn).2
    rw [ha] at h
    exact ⟨some c, by rw [hc, ← hid]; rfl, Knowledge.results_of_answerFor ht.reachable.named h hs⟩

def Lists (t : Trinity) (concept : String) (context : Option String) (ids : List String) : Prop :=
  ∃ ns, (t.ask (·.entitiesOf concept context)).1 = .ok ns ∧ ns.map (·.id) = ids

theorem Lists.unique {concept : String} {context : Option String} {ids ids' : List String}
    (h : t.Lists concept context ids) (h' : t.Lists concept context ids') : ids = ids' := by
  obtain ⟨ns, hns, rfl⟩ := h
  obtain ⟨ns', hns', rfl⟩ := h'
  cases hns.symm.trans hns'
  rfl

theorem lists_of_answer (ht : t.Built) {concept : String} {named context : Option String} {env : Envelope}
    (h : (t.ask (·.answer ⟨.conceptInstances, concept, named⟩ context)).1 = .ok env) (hs : env.status = .success) :
    t.Lists concept (Query.effective ⟨.conceptInstances, concept, named⟩ context) env.resultIds := by
  obtain ⟨c, hc, hr⟩ := results_of_answer ht h hs
  obtain ⟨ns, hns, hes⟩ := Knowledge.entitiesOf_of_resultsIn hr
  refine ⟨ns, ?_, ?_⟩
  · rw [← hc]
    exact hns
  · rw [Envelope.resultIds, hes, List.map_map]
    rfl

theorem lists_all_iff (ht : t.Reachable) {concept id : String} :
    t.Lists concept (some id) ((Instances.ofConcept concept t.graphs.instances).map (·.id)) ↔
      ∀ n ∈ Instances.ofConcept concept t.graphs.instances, (t.ask (·.relevant n.id id)).1 = .ok true := by
  have hsteady : ∀ n : Node, t.knowledge.Steady (t.knowledge.relevant n.id id) :=
    fun n => Knowledge.steady_relevant ht.named n.id id
  constructor
  · rintro ⟨ns, hns, hids⟩
    exact Knowledge.all_of_filterM hsteady hns (by simpa using congrArg List.length hids)
  · intro h
    exact ⟨_, Knowledge.filterM_of_all hsteady h, rfl⟩

/-- The results of a query that succeeds are what is listed directly, but with the empty id only where every entity of
the concept is relevant in the context with that id. -/
theorem lists_results_iff (ht : t.Built) {concept : String} {context : Option String} {env : Envelope}
    (h : (t.ask (·.answer ⟨.conceptInstances, concept, none⟩ context)).1 = .ok env) (hs : env.status = .success) :
    t.Lists concept (context.filter (· ≠ "")) env.resultIds ∧
      (t.Lists concept context env.resultIds ↔
        (context = some "" → ∀ n ∈ Instances.ofConcept concept t.graphs.instances,
          (t.ask (·.relevant n.id "")).1 = .ok true)) := by
  have hlists := lists_of_answer ht h hs
  rw [Query.effective_unnamed] at hlists
  refine ⟨hlists, ?_⟩
  by_cases hc : context = some ""
  · subst hc
    obtain ⟨ns, hns, hids⟩ := hlists
    cases hns
    rw [← hids]
    exact (lists_all_iff ht.reachable).trans (imp_iff_right rfl).symm
  · have hfilter : context.filter (· ≠ "") = context := by
      cases context with
      | none => rfl
      | some id => exact Option.filter_some_pos (by simpa using hc)
    rw [hfilter] at hlists
    exact iff_of_true hlists fun h => absurd h hc

theorem success_library :
    ∃ env, (library.ask (·.answer ⟨.conceptInstances, "Author", none⟩ (some "renaissance"))).1 = .ok env ∧
      env.status = .success := by
  have hstatus : (library.ask (·.answer ⟨.conceptInstances, "Author", none⟩ (some "renaissance"))).1.toOption.map
      (·.status) = some .success := by decide +kernel
  generalize (library.ask (·.answer ⟨.conceptInstances, "Author", none⟩ (some "renaissance"))).1 = r at hstatus ⊢
  cases r with
  | error e => cases hstatus
  | ok env => exact ⟨env, rfl, Option.some.inj hstatus⟩

theorem lists_results_iff_library : library.Built ∧
    ∃ env, (library.ask (·.answer ⟨.conceptInstances, "Author", none⟩ (some "renaissance"))).1 = .ok env ∧
      env.status = .success ∧ library.Lists "Author" (some "renaissance") env.resultIds := by
  obtain ⟨env, henv, hs⟩ := success_library
  have hiff := (lists_results_iff built_library henv hs).2
  exact ⟨built_library, env, henv, hs, hiff.mpr fun h => absurd h (by decide)⟩

/-- With the empty id a query finds both authors, and the list is empty. -/
theorem lists_ne_results : library.Built ∧
    ∃ env, (library.ask (·.answer ⟨.conceptInstances, "Author", none⟩ (some ""))).1 = .ok env ∧
      env.status = .success ∧ ¬library.Lists "Author" (some "") env.resultIds := by
  refine ⟨built_library, _, rfl, rfl, fun ⟨ns, hns, hids⟩ => ?_⟩
  cases hns
  exact absurd hids (by decide +kernel)

end Trinity

end TriGraph
