import TriGraph.Proofs.Seed.InPlace

/-!
# Seeds that fail part way

A seed that is cut off after some of its items takes just the first of its steps. So where a seed fails in
place, it has done what the seed does that is cut off in front of the failing item, and nothing of that item.
-/

namespace TriGraph.Seed

/-! ## Cutting off -/

def size (s : Seed) : Nat :=
  s.concepts.length + s.relationTypes.length + s.contexts.length + s.contextRelations.length + s.entities.length
    + s.relations.length + s.indexes.length

/-- The first `n` items, counted through the sections in their order. -/
def truncate (n : Nat) (s : Seed) : Seed :=
  let afterConcepts := n - s.concepts.length
  let afterRelationTypes := afterConcepts - s.relationTypes.length
  let afterContexts := afterRelationTypes - s.contexts.length
  let afterContextRelations := afterContexts - s.contextRelations.length
  let afterEntities := afterContextRelations - s.entities.length
  let afterRelations := afterEntities - s.relations.length
  { name := s.name
    concepts := s.concepts.take n
    relationTypes := s.relationTypes.take afterConcepts
    contexts := s.contexts.take afterRelationTypes
    contextRelations := s.contextRelations.take afterContexts
    entities := s.entities.take afterContextRelations
    relations := s.relations.take afterEntities
    indexes := s.indexes.take afterRelations }

theorem zipIdx_take {α : Type} (xs : List α) (n k : Nat) : (xs.take n).zipIdx k = (xs.zipIdx k).take n := by
  induction xs generalizing n k with
  | nil => simp
  | cons x xs ih =>
    cases n with
    | zero => rfl
    | succ n => simp [List.zipIdx_cons, ih]

theorem length_steps (fresh : Nat → String) (s : Seed) : (s.steps fresh).length = s.size := by
  simp [steps, size, Nat.add_assoc]

theorem steps_truncate (fresh : Nat → String) (n : Nat) (s : Seed) :
    (s.truncate n).steps fresh = (s.steps fresh).take n := by
  simp [steps, truncate, List.take_append, zipIdx_take, Nat.sub_sub, Nat.add_assoc]

theorem Explicit.truncate {s : Seed} (h : s.Explicit) (n : Nat) : (s.truncate n).Explicit :=
  fun i hi => h i (List.mem_of_mem_take hi)

/-! ## Failure -/

theorem failed_of_apply {t u : Trinity} {s : Seed} (hs : s.Explicit) {fresh : Nat → String} {e : Knowledge.Error}
    (h : s.apply fresh t = (u, some e)) (fresh' : Nat → String) :
    ∃ n f, (s.steps fresh)[n]? = some f ∧ f u = .error e ∧
      (∃ v, (s.truncate n).apply fresh' t = (v, none) ∧ v.graphs = u.graphs) ∧
      (s.truncate (n + 1)).apply fresh' t = (u, some e) := by
  obtain ⟨n, f, hf, htake, hfail⟩ := failed_of_takeSteps (apply_eq_error.mp h)
  refine ⟨n, f, hf, hfail, ⟨u.refresh, ?_, rfl⟩, ?_⟩
  · rw [(hs.truncate n).apply_eq fresh' fresh, apply_eq_ok, steps_truncate]
    exact ⟨u, htake, rfl⟩
  · rw [(hs.truncate (n + 1)).apply_eq fresh' fresh, apply_eq_error, steps_truncate, List.take_add_one, hf,
      Option.toList_some, takeSteps_append, htake]
    exact takeSteps_singleton hfail

theorem write_of_step {fresh : Nat → String} {s : Seed} {n : Nat} {f : Step} (hf : (s.steps fresh)[n]? = some f) :
    ∃ w, (s.writes fresh)[n]? = some w ∧ Runs w f := by
  have hruns := runs_writes fresh s
  obtain ⟨hn, rfl⟩ := List.getElem?_eq_some_iff.mp hf
  have hn' : n < (s.writes fresh).length := hruns.length_eq.symm ▸ hn
  exact ⟨_, List.getElem?_eq_getElem hn', hruns.get hn' hn⟩

namespace InPlace

/-- Some item is the first whose write fails, and that write changes nothing. What is there then is what the items
before it make of the trinity. -/
theorem apply_failed {t u : Trinity} {s : Seed} (hs : s.Explicit) {fresh : Nat → String} {e : Knowledge.Error}
    (h : (apply fresh s).run t = (.error e, u)) (fresh' : Nat → String) :
    ∃ n < s.size, (∃ w, (s.writes fresh)[n]? = some w ∧ w.run u = (.error e, u)) ∧
      (∃ v, (apply fresh' (s.truncate n)).run t = (.ok (), v) ∧ v.graphs = u.graphs) ∧
      (apply fresh' (s.truncate (n + 1))).run t = (.error e, u) := by
  obtain ⟨n, f, hf, hfail, ⟨v, hv, hgraphs⟩, hnext⟩ := failed_of_apply hs (run_apply_eq_error.mp h) fresh'
  obtain ⟨hn, -⟩ := List.getElem?_eq_some_iff.mp hf
  obtain ⟨w, hw, hruns⟩ := write_of_step hf
  exact ⟨n, length_steps fresh s ▸ hn, ⟨w, hw, hruns.of_error hfail⟩, ⟨v, run_apply_eq_ok.mpr hv, hgraphs⟩,
    run_apply_eq_error.mpr hnext⟩

def haunted : Seed where
  concepts := [⟨"Person", [], []⟩, ⟨"Author", [], ["Person"]⟩]
  relationTypes := [⟨"wrote", [], some "Author", some "Person"⟩]
  contexts := [⟨"europe", .spatial, [("location", .text "Europe")]⟩]
  entities := [⟨"hamlet", "Author", []⟩]
  relations := [⟨some "x", "hamlet", "wrote", "hamlet", []⟩, ⟨some "y", "ghost", "wrote", "hamlet", []⟩]
  indexes := [⟨.instances, "by_location", .hash, ["node.properties.location"]⟩]

theorem explicit_haunted : haunted.Explicit := by
  unfold Explicit
  decide

def remains : Trinity :=
  ((apply (fun _ => "") haunted).run (Trinity.new "Library")).2

theorem run_haunted : (apply (fun _ => "") haunted).run (Trinity.new "Library") =
    (.error (.graph (.missingEndpoint "y" "ghost")), remains) :=
  Prod.ext (by rfl) rfl

theorem apply_failed_haunted : haunted.Explicit ∧ (apply (fun _ => "") haunted).run (Trinity.new "Library") =
      (.error (.graph (.missingEndpoint "y" "ghost")), remains) ∧
    ∃ n < haunted.size, (∃ w, (haunted.writes fun _ => "")[n]? = some w ∧
        w.run remains = (.error (.graph (.missingEndpoint "y" "ghost")), remains)) ∧
      (∃ v, (apply (fun _ => "fresh") (haunted.truncate n)).run (Trinity.new "Library") = (.ok (), v) ∧
        v.graphs = remains.graphs) ∧
      (apply (fun _ => "fresh") (haunted.truncate (n + 1))).run (Trinity.new "Library") =
        (.error (.graph (.missingEndpoint "y" "ghost")), remains) :=
  ⟨explicit_haunted, run_haunted, apply_failed explicit_haunted run_haunted _⟩

-- six items come before the ghost, and the relation among them stays
example : ((haunted.truncate 6).relations.map (·.id), remains.graphs.instances.allEdges.map (·.id)) =
    ([some "x"], ["x"]) := by
  decide +kernel

end InPlace

end TriGraph.Seed
