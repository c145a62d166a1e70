import TriGraph.Proofs.Trinity.History
import TriGraph.Proofs.Trinity.Writes
import TriGraph.Seed

/-!
# The steps of a seed

Steps are taken until one fails. No step touches the adjunctions or the memo.
-/

namespace TriGraph.Seed

open Trinity (Effect AllReady)

/-! ## Taking steps -/

section
variable {t u : Trinity} {e : Knowledge.Error}

theorem takeSteps_append (fs gs : List Step) (t : Trinity) :
    takeSteps (fs ++ gs) t = match takeSteps fs t with
      | (u, none) => takeSteps gs u
      | (u, some e) => (u, some e) := by
  induction fs generalizing t with
  | nil => rfl
  | cons f fs ih =>
    simp only [List.cons_append, takeSteps]
    cases f t with
    | error e => rfl
    | ok u => exact ih u

theorem failed_of_takeSteps {fs : List Step} (h : takeSteps fs t = (u, some e)) :
    ∃ n f, fs[n]? = some f ∧ takeSteps (fs.take n) t = (u, none) ∧ f u = .error e := by
  induction fs generalizing t with
  | nil => cases h
  | cons f fs ih =>
    unfold takeSteps at h
    cases hf : f t with
    | error err =>
      rw [hf] at h
      cases h
      exact ⟨0, f, rfl, rfl, hf⟩
    | ok v =>
      rw [hf] at h
      obtain ⟨n, g, hg, htake, hfail⟩ := ih h
      refine ⟨n + 1, g, hg, ?_, hfail⟩
      rw [List.take_succ_cons, takeSteps, hf]
      exact htake

theorem takeSteps_singleton {f : Step} (h : f t = .error e) : takeSteps [f] t = (t, some e) := by
  rw [takeSteps, h]

/-! ## Applying -/

theorem apply_eq_ok {fresh : Nat → String} {s : Seed} :
    s.apply fresh t = (u, none) ↔ ∃ v, takeSteps (s.steps fresh) t = (v, none) ∧ u = v.refresh := by
  unfold apply
  obtain ⟨v, _ | e⟩ := takeSteps (s.steps fresh) t
  · simp [eq_comm]
  · simp

theorem apply_eq_error {fresh : Nat → String} {s : Seed} :
    s.apply fresh t = (u, some e) ↔ takeSteps (s.steps fresh) t = (u, some e) := by
  unfold apply
  obtain ⟨v, _ | e⟩ := takeSteps (s.steps fresh) t
  · simp
  · simp

def Explicit (s : Seed) : Prop :=
  ∀ i ∈ s.relations, i.id.isSome = true

theorem Explicit.steps_eq {s : Seed} (h : s.Explicit) (fresh fresh' : Nat → String) : s.steps fresh = s.steps fresh' := by
  have hstep : ∀ p ∈ s.relations.zipIdx, p.1.step (fresh p.2) = p.1.step (fresh' p.2) := by
    intro p hp
    obtain ⟨id, hid⟩ := Option.isSome_iff_exists.mp (h p.1 (List.fst_mem_of_mem_zipIdx hp))
    simp only [RelationItem.step, hid, Option.getD_some]
  unfold steps
  exact congrArg (_ ++ · ++ s.indexes.map IndexItem.step) (List.map_congr_left hstep)

theorem Explicit.apply_eq {s : Seed} (h : s.Explicit) (fresh fresh' : Nat → String) : s.apply fresh = s.apply fresh' := by
  funext t
  unfold apply
  rw [h.steps_eq fresh fresh']

end

/-! ## The effect of each step -/

theorem describes_of_mem_steps (fresh : Nat → String) {s : Seed} (hi : s.indexes = []) {f : Step}
    (hf : f ∈ s.steps fresh) : ∃ x : Effect, x.Describes f := by
  unfold steps at hf
  simp only [hi, List.map_nil, List.append_nil, List.mem_append, List.mem_map, or_assoc] at hf
  rcases hf with ⟨i, -, rfl⟩ | ⟨i, -, rfl⟩ | ⟨i, -, rfl⟩ | ⟨i, -, rfl⟩ | ⟨i, -, rfl⟩ | ⟨⟨i, n⟩, -, rfl⟩
  · exact ⟨_, Effect.describes_createConcept i.id i.properties i.parents⟩
  · exact ⟨_, Effect.describes_createRelationType i.id i.properties i.domain i.range⟩
  · exact ⟨_, Effect.describes_addNode .contexts (Contexts.context i.id i.kind i.properties)⟩
  · exact ⟨_, Effect.describes_addEdge .contexts (Contexts.relation i.source i.target i.type i.properties)⟩
  · exact ⟨_, Effect.describes_addNode .instances (Instances.entity i.id i.concept i.properties)⟩
  · exact ⟨_, Effect.describes_addEdge .instances
      (Instances.relation (i.id.getD (fresh n)) i.source i.type i.target i.properties)⟩

/-- Steps with an effect go through just when each is ready in its turn, and then have all effects. -/
theorem takeSteps_described {fs : List Step} (hfs : ∀ f ∈ fs, ∃ x : Effect, x.Describes f) :
    ∃ xs : List Effect, (∀ x ∈ xs, x.Sound) ∧
      ∀ t u, takeSteps fs t = (u, none) ↔ AllReady xs t ∧ u = t.takeAll xs := by
  induction fs with
  | nil => exact ⟨[], fun _ h => (nomatch h), fun t u => by simp [takeSteps, AllReady, Trinity.takeAll, eq_comm]⟩
  | cons f fs ih =>
    obtain ⟨⟨x, hx⟩, hfs⟩ := List.forall_mem_cons.mp hfs
    obtain ⟨xs, hsound, hok⟩ := ih hfs
    refine ⟨x :: xs, List.forall_mem_cons.mpr ⟨hx.sound, hsound⟩, fun t u => ?_⟩
    unfold takeSteps
    cases hf : f t with
    | error e =>
      have hready : ¬x.Ready t := by
        intro hr
        rw [(hx.ok_iff t _).mpr ⟨hr, rfl⟩] at hf
        cases hf
      simp [AllReady, hready]
    | ok v =>
      obtain ⟨hready, rfl⟩ := (hx.ok_iff t v).mp hf
      refine (hok _ u).trans ?_
      simp only [AllReady, and_iff_right hready]
      rfl

/-! ## What no step touches -/

theorem withGraphs_of_createIndex {graph name : String} {kind : Index.Kind} {paths : List String} {t u : Trinity}
    (h : t.createIndex graph name kind paths = .ok u) : u = t.withGraphs u.graphs := by
  unfold Trinity.createIndex at h
  cases hl : Knowledge.layer graph with
  | error e => rw [hl] at h; cases h
  | ok l =>
    rw [hl] at h
    simp only [bind, Except.bind] at h
    split at h
    · cases h
      rfl
    · cases h

theorem withGraphs_of_mem_steps {fresh : Nat → String} {s : Seed} {f : Step} (hf : f ∈ s.steps fresh) {t u : Trinity}
    (h : f t = .ok u) : u = t.withGraphs u.graphs := by
  have hsplit : f ∈ { s with indexes := [] }.steps fresh ∨ f ∈ s.indexes.map IndexItem.step := by
    simpa [steps, or_assoc] using hf
  rcases hsplit with hf | hf
  · obtain ⟨x, hx⟩ := describes_of_mem_steps _ rfl hf
    obtain ⟨-, rfl⟩ := (hx.ok_iff t u).mp h
    exact (Trinity.withGraphs_take x t).symm
  · obtain ⟨i, -, rfl⟩ := List.mem_map.mp hf
    exact withGraphs_of_createIndex h

theorem withGraphs_of_takeSteps {fs : List Step} (hfs : ∀ f ∈ fs, ∀ t u, f t = .ok u → u = t.withGraphs u.graphs)
    {t u : Trinity} {e : Option Knowledge.Error} (h : takeSteps fs t = (u, e)) : u = t.withGraphs u.graphs := by
  induction fs generalizing t with
  | nil =>
    cases h
    rfl
  | cons f fs ih =>
    obtain ⟨hf, hfs⟩ := List.forall_mem_cons.mp hfs
    unfold takeSteps at h
    cases hv : f t with
    | error err =>
      rw [hv] at h
      cases h
      rfl
    | ok v =>
      rw [hv] at h
      rw [ih hfs h, hf t v hv]
      rfl

end TriGraph.Seed
