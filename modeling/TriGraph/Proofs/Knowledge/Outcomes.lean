import TriGraph.Proofs.Knowledge.Walks

/-!
# How walks end

Steps behind the first one that is refused or leads nowhere are never looked at. An application may add to the memo
but changes no later answer, so all steps are judged by what is answered before the walk.
-/

namespace TriGraph

/-! ## Names of layers -/

theorem Layer.ofName?_eq_some {s : String} {l : Layer} : ofName? s = some l ↔ s = l.name := by
  constructor
  · intro h
    unfold ofName? at h
    split at h <;> cases h <;> rfl
  · rintro rfl
    cases l <;> rfl

theorem Layer.name_inj {l l' : Layer} (h : l.name = l'.name) : l = l' := by
  have hl := (ofName?_eq_some (l := l)).mpr rfl
  rw [h, (ofName?_eq_some (l := l')).mpr rfl] at hl
  exact (Option.some.inj hl).symm

namespace Knowledge

theorem layer_of_named {graph : String} {l : Layer} (h : graph.toLower = l.name) : layer graph = .ok l := by
  unfold layer Layer.parse
  rw [Layer.ofName?_eq_some.mpr h]

theorem layer_of_unnamed {graph : String} (h : ∀ l : Layer, graph.toLower ≠ l.name) :
    layer graph = .error (.unknownGraph graph) := by
  have hn : Layer.ofName? graph.toLower = none :=
    Option.eq_none_iff_forall_ne_some.mpr fun l hl => h l (Layer.ofName?_eq_some.mp hl)
  unfold layer Layer.parse
  rw [hn]

theorem run_apply {k : Knowledge} {m : Memo} (a : Adjunction) (side : Adjoint) (id : String) :
    (k.apply a side id).run m = (.ok (k.reply m a side id), (a.apply side k.graphs id m).2) :=
  rfl

end Knowledge

namespace Trinity

variable {t : Trinity} {x y z : Waypoint} {s : TraversalStep} {a : Adjunction} {p q : List TraversalStep}
  {w : List Waypoint}

/-! ## Steps -/

def Fits (t : Trinity) (x : Waypoint) (s : TraversalStep) (a : Adjunction) : Prop :=
  t.knowledge.adjunction? s.adjunction = some a ∧ a.start s.side = x.layer

inductive Refused (t : Trinity) (x : Waypoint) (s : TraversalStep) : Knowledge.Error → Prop where
  | unknown (h : t.knowledge.adjunction? s.adjunction = none) : Refused t x s (.unknownAdjunction s.adjunction)
  | mismatch {a : Adjunction} (ha : t.knowledge.adjunction? s.adjunction = some a) (hl : a.start s.side ≠ x.layer) :
      Refused t x s (.directionMismatch s.adjunction s.side (a.start s.side) x.layer)

def Stuck (t : Trinity) (x : Waypoint) (s : TraversalStep) : Prop :=
  ∃ a, t.Fits x s a ∧ (t.read (.apply s.adjunction s.side x.id)).1 = .ok none

/-- From the first place, the steps lead over the given places to the last one. -/
inductive Trail (t : Trinity) : Waypoint → List TraversalStep → List Waypoint → Waypoint → Prop where
  | stay (x : Waypoint) : Trail t x [] [] x
  | go {x z : Waypoint} {s : TraversalStep} {a : Adjunction} {id : String} {p : List TraversalStep} {w : List Waypoint}
      (hf : t.Fits x s a) (ha : (t.read (.apply s.adjunction s.side x.id)).1 = .ok (some id))
      (h : Trail t (t.knowledge.waypoint (a.finish s.side) id) p w z) :
      Trail t x (s :: p) (t.knowledge.waypoint (a.finish s.side) id :: w) z

inductive Ends (t : Trinity) (x : Waypoint) : List TraversalStep → Prop where
  | done : Ends t x []
  | stuck {s : TraversalStep} {q : List TraversalStep} (h : t.Stuck x s) : Ends t x (s :: q)

/-- Every step is through an adjunction that starts from the layer to which the steps before it lead. -/
inductive Connected (t : Trinity) : Layer → List TraversalStep → Prop where
  | nil (l : Layer) : Connected t l []
  | cons {s : TraversalStep} {a : Adjunction} {p : List TraversalStep}
      (ha : t.knowledge.adjunction? s.adjunction = some a) (h : Connected t (a.finish s.side) p) :
      Connected t (a.start s.side) (s :: p)

theorem Trail.length_eq (h : t.Trail x p w y) : w.length = p.length := by
  induction h with
  | stay => rfl
  | go _ _ _ ih => exact congrArg (· + 1) ih

theorem Refused.not_connected {e : Knowledge.Error} (hr : t.Refused x s e) : ¬t.Connected x.layer (s :: q) := by
  generalize hl : x.layer = l
  generalize hp : s :: q = p
  rintro (_ | ⟨ha, _⟩)
  · cases hp
  · cases hp
    cases hr with
    | unknown h => exact absurd (h.symm.trans ha) nofun
    | mismatch hb hne =>
      cases hb.symm.trans ha
      exact hne hl.symm

theorem Trail.connected (h : t.Trail x p w y) (hc : t.Connected x.layer (p ++ q)) : t.Connected y.layer q := by
  induction h with
  | stay => exact hc
  | @go x _ s a _ p _ hf _ _ ih =>
    obtain ⟨ha, hl⟩ := hf
    generalize x.layer = l at hc hl
    rw [List.cons_append] at hc
    cases hc with
    | cons hb hc =>
      cases ha.symm.trans hb
      exact ih hc

theorem read_apply_of_fits (h : t.Fits x s a) : (t.read (.apply s.adjunction s.side x.id)).1 =
    .ok (t.knowledge.reply t.memo a s.side x.id) :=
  read_apply h.1 s.side x.id

theorem step_cases (t : Trinity) (x : Waypoint) (s : TraversalStep) : (∃ e, t.Refused x s e) ∨ t.Stuck x s ∨
    ∃ a id, t.Fits x s a ∧ (t.read (.apply s.adjunction s.side x.id)).1 = .ok (some id) := by
  cases ha : t.knowledge.adjunction? s.adjunction with
  | none => exact Or.inl ⟨_, .unknown ha⟩
  | some a =>
    by_cases hl : a.start s.side = x.layer
    · have hf : t.Fits x s a := ⟨ha, hl⟩
      have hr := read_apply_of_fits hf
      cases hn : t.knowledge.reply t.memo a s.side x.id with
      | none => exact Or.inr (Or.inl ⟨a, hf, hn ▸ hr⟩)
      | some id => exact Or.inr (Or.inr ⟨a, id, hf, hn ▸ hr⟩)
    · exact Or.inl ⟨_, .mismatch ha hl⟩

/-! ## What follows a place -/

def onward (t : Trinity) (x : Waypoint) (plan : List TraversalStep) : Except Knowledge.Error (List Waypoint) :=
  ((t.knowledge.follow x.layer x.id plan).run t.memo).1

theorem follow_of_fits (h : t.Fits x s a) : t.knowledge.follow x.layer x.id (s :: q) = do
    match ← t.knowledge.apply a s.side x.id with
    | none => return []
    | some id => return t.knowledge.waypoint (a.finish s.side) id :: (← t.knowledge.follow (a.finish s.side) id q) := by
  have hreq : t.knowledge.require s.adjunction = pure a := by
    unfold Knowledge.require
    rw [h.1]
  rewrite [Knowledge.follow, hreq, pure_bind, if_neg (not_not_intro h.2)]
  rfl

theorem onward_of_refused {e : Knowledge.Error} (h : t.Refused x s e) : t.onward x (s :: q) = .error e := by
  unfold onward Knowledge.follow Knowledge.require
  cases h with
  | unknown h =>
    rw [h]
    rfl
  | mismatch ha hl =>
    rw [ha, pure_bind, if_pos hl]
    rfl

theorem onward_of_stuck (h : t.Stuck x s) : t.onward x (s :: q) = .ok [] := by
  obtain ⟨a, hf, ha⟩ := h
  have hr : t.knowledge.reply t.memo a s.side x.id = none := Except.ok.inj ((read_apply_of_fits hf).symm.trans ha)
  unfold onward
  rw [follow_of_fits hf, Knowledge.run_bind, Knowledge.run_apply, hr]
  rfl

theorem onward_of_step (ht : t.Reachable) {id : String} (hf : t.Fits x s a)
    (ha : (t.read (.apply s.adjunction s.side x.id)).1 = .ok (some id)) :
    t.onward x (s :: q) = (t.onward (t.knowledge.waypoint (a.finish s.side) id) q).map
      (t.knowledge.waypoint (a.finish s.side) id :: ·) := by
  have hr : t.knowledge.reply t.memo a s.side x.id = some id := Except.ok.inj ((read_apply_of_fits hf).symm.trans ha)
  have hkeep : t.knowledge.Agree t.memo (a.apply s.side t.knowledge.graphs x.id t.memo).2 :=
    (Knowledge.grown_apply ht.named hf.1 s.side x.id).agree
  have hsame := (Knowledge.steady_follow ht.named q (a.finish s.side) id).answers _ _ hkeep
  unfold onward
  rw [follow_of_fits hf, Knowledge.run_bind, Knowledge.run_apply, hr]
  change ((t.knowledge.follow (a.finish s.side) id q >>= _).run _).1 =
    ((t.knowledge.follow (a.finish s.side) id q).run t.memo).1.map _
  rw [hsame, Knowledge.run_bind]
  generalize (t.knowledge.follow (a.finish s.side) id q).run _ = r
  obtain ⟨e | v, m⟩ := r <;> rfl

theorem Trail.onward_append (ht : t.Reachable) (h : t.Trail x p w y) (q : List TraversalStep) :
    t.onward x (p ++ q) = (t.onward y q).map (w ++ ·) := by
  induction h with
  | stay y =>
    rw [List.nil_append]
    cases t.onward y q <;> rfl
  | @go x z s a id p w hf ha h ih =>
    rw [List.cons_append, onward_of_step ht hf ha, ih]
    cases t.onward z q <;> rfl

theorem onward_of_ends (h : t.Ends x q) : t.onward x q = .ok [] := by
  cases h with
  | done => rfl
  | stuck h => exact onward_of_stuck h

theorem exists_trail (t : Trinity) (x : Waypoint) (plan : List TraversalStep) :
    (∃ p s q w y e, plan = p ++ s :: q ∧ t.Trail x p w y ∧ t.Refused y s e) ∨
      ∃ p q w y, plan = p ++ q ∧ t.Trail x p w y ∧ t.Ends y q := by
  induction plan generalizing x with
  | nil => exact Or.inr ⟨[], [], [], x, rfl, .stay x, .done⟩
  | cons s plan ih =>
    rcases t.step_cases x s with ⟨e, hr⟩ | hs | ⟨a, id, hf, ha⟩
    · exact Or.inl ⟨[], s, plan, [], x, e, rfl, .stay x, hr⟩
    · exact Or.inr ⟨[], s :: plan, [], x, rfl, .stay x, .stuck hs⟩
    · rcases ih (t.knowledge.waypoint (a.finish s.side) id) with
        ⟨p, s', q, w, y, e, hp, h, hr⟩ | ⟨p, q, w, y, hp, h, he⟩
      · exact Or.inl ⟨s :: p, s', q, _, y, e, congrArg (s :: ·) hp, .go hf ha h, hr⟩
      · exact Or.inr ⟨s :: p, q, _, y, congrArg (s :: ·) hp, .go hf ha h, he⟩

section
variable (ht : t.Reachable) {plan : List TraversalStep}
include ht

theorem onward_eq_error {e : Knowledge.Error} : t.onward x plan = .error e ↔
    ∃ p s q w y, plan = p ++ s :: q ∧ t.Trail x p w y ∧ t.Refused y s e := by
  have hfail : ∀ {p s q w y e}, t.Trail x p w y → t.Refused y s e → t.onward x (p ++ s :: q) = .error e := by
    intro p s q w y e h hr
    rw [h.onward_append ht, onward_of_refused hr]
    rfl
  constructor
  · intro he
    rcases t.exists_trail x plan with ⟨p, s, q, w, y, e', rfl, h, hr⟩ | ⟨p, q, w, y, rfl, h, hq⟩
    · cases (hfail h hr).symm.trans he
      exact ⟨p, s, q, w, y, rfl, h, hr⟩
    · rw [h.onward_append ht, onward_of_ends hq] at he
      cases he
  · rintro ⟨p, s, q, w, y, rfl, h, hr⟩
    exact hfail h hr

theorem onward_eq_ok : t.onward x plan = .ok w ↔ ∃ p q y, plan = p ++ q ∧ t.Trail x p w y ∧ t.Ends y q := by
  have hend : ∀ {p q w y}, t.Trail x p w y → t.Ends y q → t.onward x (p ++ q) = .ok w := by
    intro p q w y h hq
    rw [h.onward_append ht, onward_of_ends hq]
    exact congrArg Except.ok (List.append_nil w)
  constructor
  · intro hw
    rcases t.exists_trail x plan with ⟨p, s, q, v, y, e, rfl, h, hr⟩ | ⟨p, q, v, y, rfl, h, hq⟩
    · rw [h.onward_append ht, onward_of_refused hr] at hw
      cases hw
    · cases (hend h hq).symm.trans hw
      exact ⟨p, q, y, rfl, h, hq⟩
  · rintro ⟨p, q, y, rfl, h, hq⟩
    exact hend h hq

end

/-! ## Walks -/

theorem walk_of_unnamed {graph : String} (h : ∀ l : Layer, graph.toLower ≠ l.name) (id : String)
    (plan : List TraversalStep) : (t.walk graph id plan).1 = .error (.unknownGraph graph) := by
  unfold walk ask Knowledge.traverse
  rw [Knowledge.layer_of_unnamed h]
  rfl

theorem walk_of_absent {graph id : String} {l : Layer} (hl : graph.toLower = l.name)
    (hn : (t.knowledge.store l).hasNode id = false) (plan : List TraversalStep) :
    (t.walk graph id plan).1 = .ok [] := by
  unfold walk ask Knowledge.traverse
  rw [Knowledge.layer_of_named hl]
  change ((if (t.knowledge.store l).hasNode id = true then _ else _ : Knowledge.Recall _).run _).1 = _
  rw [if_neg (by simp [hn])]
  rfl

def Departs (t : Trinity) (graph id : String) (x : Waypoint) : Prop :=
  ∃ l : Layer, graph.toLower = l.name ∧ (t.knowledge.store l).hasNode id = true ∧ x = t.knowledge.waypoint l id

theorem walk_of_departs {graph id : String} (h : t.Departs graph id x) (plan : List TraversalStep) :
    (t.walk graph id plan).1 = (t.onward x plan).map (x :: ·) := by
  obtain ⟨l, hl, hn, rfl⟩ := h
  unfold walk ask Knowledge.traverse onward
  rw [Knowledge.layer_of_named hl]
  change ((if (t.knowledge.store l).hasNode id = true then _ else _ : Knowledge.Recall _).run _).1 = _
  rw [if_pos hn, Knowledge.run_bind]
  change _ = ((t.knowledge.follow l id plan).run t.memo).1.map _
  generalize (t.knowledge.follow l id plan).run t.memo = r
  obtain ⟨e | v, m⟩ := r <;> rfl

theorem departs_cases (t : Trinity) (graph id : String) : (∀ l : Layer, graph.toLower ≠ l.name) ∨
    (∃ l : Layer, graph.toLower = l.name ∧ (t.knowledge.store l).hasNode id = false) ∨ ∃ x, t.Departs graph id x := by
  by_cases hl : ∃ l : Layer, graph.toLower = l.name
  · obtain ⟨l, hl⟩ := hl
    cases hn : (t.knowledge.store l).hasNode id with
    | false => exact Or.inr (Or.inl ⟨l, hl, hn⟩)
    | true => exact Or.inr (Or.inr ⟨_, l, hl, hn, rfl⟩)
  · exact Or.inl fun l h => hl ⟨l, h⟩

section
variable {graph id : String} {plan : List TraversalStep}

theorem walk_eq_error {e : Knowledge.Error} : (t.walk graph id plan).1 = .error e ↔
    (∀ l : Layer, graph.toLower ≠ l.name) ∧ e = .unknownGraph graph ∨
      ∃ x, t.Departs graph id x ∧ t.onward x plan = .error e := by
  constructor
  · intro he
    rcases t.departs_cases graph id with hl | ⟨l, hl, hn⟩ | ⟨x, hx⟩
    · exact Or.inl ⟨hl, Except.error.inj (he.symm.trans (walk_of_unnamed hl id plan))⟩
    · cases (walk_of_absent hl hn plan).symm.trans he
    · rw [walk_of_departs hx] at he
      refine Or.inr ⟨x, hx, ?_⟩
      cases ho : t.onward x plan <;> simp_all [Except.map]
  · rintro (⟨hl, rfl⟩ | ⟨x, hx, he⟩)
    · exact walk_of_unnamed hl id plan
    · rw [walk_of_departs hx, he]
      rfl

theorem walk_eq_ok {v : List Waypoint} : (t.walk graph id plan).1 = .ok v ↔
    (∃ l : Layer, graph.toLower = l.name ∧ (t.knowledge.store l).hasNode id = false ∧ v = []) ∨
      ∃ x w, t.Departs graph id x ∧ t.onward x plan = .ok w ∧ v = x :: w := by
  constructor
  · intro hv
    rcases t.departs_cases graph id with hl | ⟨l, hl, hn⟩ | ⟨x, hx⟩
    · cases (walk_of_unnamed hl id plan).symm.trans hv
    · exact Or.inl ⟨l, hl, hn, Except.ok.inj (hv.symm.trans (walk_of_absent hl hn plan))⟩
    · rw [walk_of_departs hx] at hv
      refine Or.inr ⟨x, ?_⟩
      cases ho : t.onward x plan <;> simp_all [Except.map]
  · rintro (⟨l, hl, hn, rfl⟩ | ⟨x, w, hx, hw, rfl⟩)
    · exact walk_of_absent hl hn plan
    · rw [walk_of_departs hx, hw]
      rfl

end

/-- A walk fails just where its graph is unknown or where a step is refused to which the steps before it lead. Else it
goes as far as the steps lead, and so does every walk through a connected plan. -/
theorem walk_iff (ht : t.Reachable) (graph id : String) (plan : List TraversalStep) :
    (∀ e, (t.walk graph id plan).1 = .error e ↔
      (∀ l : Layer, graph.toLower ≠ l.name) ∧ e = .unknownGraph graph ∨
        ∃ x p s q w y, t.Departs graph id x ∧ plan = p ++ s :: q ∧ t.Trail x p w y ∧ t.Refused y s e) ∧
    (∀ v, (t.walk graph id plan).1 = .ok v ↔
      (∃ l : Layer, graph.toLower = l.name ∧ (t.knowledge.store l).hasNode id = false ∧ v = []) ∨
        ∃ x p q w y, t.Departs graph id x ∧ plan = p ++ q ∧ t.Trail x p w y ∧ t.Ends y q ∧
          v = x :: w ∧ w.length = p.length) ∧
    ∀ l : Layer, graph.toLower = l.name → t.Connected l plan → ∃ v, (t.walk graph id plan).1 = .ok v := by
  have herror : ∀ e, (t.walk graph id plan).1 = .error e ↔
      (∀ l : Layer, graph.toLower ≠ l.name) ∧ e = .unknownGraph graph ∨
        ∃ x p s q w y, t.Departs graph id x ∧ plan = p ++ s :: q ∧ t.Trail x p w y ∧ t.Refused y s e := by
    intro e
    simp only [walk_eq_error, onward_eq_error ht, ← exists_and_left]
  refine ⟨herror, fun v => ?_, fun l hl hc => ?_⟩
  · rw [walk_eq_ok]
    refine or_congr_right ⟨?_, ?_⟩
    · rintro ⟨x, w, hx, hw, rfl⟩
      obtain ⟨p, q, y, hp, h, hq⟩ := (onward_eq_ok ht).mp hw
      exact ⟨x, p, q, w, y, hx, hp, h, hq, rfl, h.length_eq⟩
    · rintro ⟨x, p, q, w, y, hx, hp, h, hq, rfl, -⟩
      exact ⟨x, w, hx, (onward_eq_ok ht).mpr ⟨p, q, y, hp, h, hq⟩, rfl⟩
  · cases hv : (t.walk graph id plan).1 with
    | ok v => exact ⟨v, rfl⟩
    | error e =>
      rcases (herror e).mp hv with ⟨hn, -⟩ | ⟨x, p, s, q, w, y, ⟨l', hl', -, rfl⟩, rfl, h, hr⟩
      · exact absurd hl (hn l)
      · cases Layer.name_inj (hl.symm.trans hl')
        exact absurd (h.connected hc) hr.not_connected

theorem walk_iff_copies : copies.Reachable ∧
    (copies.walk "Ontological" "Author" [⟨"copying", .left⟩, ⟨"copying", .right⟩, ⟨"copying", .right⟩,
      ⟨"gone", .left⟩]).1 = .error (.directionMismatch "copying" .right .instances .ontology) ∧
    ∃ v, (copies.walk "Ontological" "Author" [⟨"copying", .left⟩, ⟨"copying", .right⟩]).1 = .ok v := by
  have hgraph : "Ontological".toLower = Layer.ontology.name := by decide +kernel
  have hx : copies.Departs "Ontological" "Author" (copies.knowledge.waypoint .ontology "Author") :=
    ⟨.ontology, hgraph, rfl, rfl⟩
  have hc : copies.Connected .ontology [⟨"copying", .left⟩, ⟨"copying", .right⟩] :=
    Connected.cons (s := ⟨"copying", .left⟩) (a := copying) rfl
      (Connected.cons (s := ⟨"copying", .right⟩) (a := copying) rfl (.nil _))
  have hw : copies.Trail (copies.knowledge.waypoint .ontology "Author") [⟨"copying", .left⟩, ⟨"copying", .right⟩]
      [copies.knowledge.waypoint .instances "copy of Author", copies.knowledge.waypoint .ontology "Author"]
      (copies.knowledge.waypoint .ontology "Author") :=
    Trail.go (a := copying) ⟨rfl, rfl⟩ rfl (Trail.go (a := copying) ⟨rfl, rfl⟩ rfl (.stay _))
  have hr : copies.Refused (copies.knowledge.waypoint .ontology "Author") ⟨"copying", .right⟩
      (.directionMismatch "copying" .right .instances .ontology) :=
    Refused.mismatch (a := copying) rfl nofun
  refine ⟨reachable_copies, ((walk_iff reachable_copies _ _ _).1 _).mpr (Or.inr ?_), ?_⟩
  · exact ⟨_, [⟨"copying", .left⟩, ⟨"copying", .right⟩], ⟨"copying", .right⟩, [⟨"gone", .left⟩], _, _, hx, rfl, hw, hr⟩
  · exact (walk_iff reachable_copies _ _ _).2.2 .ontology hgraph hc

end Trinity

end TriGraph
