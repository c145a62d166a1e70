import Mathlib.Data.List.Forall2
import TriGraph.Proofs.Seed.Steps
import TriGraph.Proofs.Trinity.InPlace

/-!
# Seeds in place

The write of an item leaves what its step returns, or the trinity as it was where that refuses. So a seed that is
applied in place goes as far as its steps go.
-/

namespace TriGraph.Seed

open Trinity.InPlace

/-- The write reports what the step does, and leaves what that returns or else everything as it was. -/
def Runs (w : Write) (f : Step) : Prop :=
  ∀ t, w.run t = ((f t).map fun _ => (), (f t).toOption.getD t)

section
variable {w : Write} {f : Step} {t u : Trinity} {e : Knowledge.Error}

theorem Runs.of_ok (h : Runs w f) (hf : f t = .ok u) : w.run t = (.ok (), u) := by
  rw [h, hf]
  rfl

theorem Runs.of_error (h : Runs w f) (hf : f t = .error e) : w.run t = (.error e, t) := by
  rw [h, hf]
  rfl

theorem runs_of_run {α : Type} {w : StateM Trinity (Except Knowledge.Error α)} {x : α}
    (h : ∀ t, w.run t = ((f t).map fun _ => x, (f t).toOption.getD t)) :
    Runs (return (← w).map fun _ => ()) f := by
  intro t
  rw [run_bind_of_run (h t)]
  cases f t with
  | error e => rfl
  | ok u => rfl

/-! ## Items -/

theorem ConceptItem.runs (i : ConceptItem) : Runs i.write i.step :=
  runs_of_run fun t => run_createConcept t i.id i.properties i.parents

theorem RelationTypeItem.runs (i : RelationTypeItem) : Runs i.write i.step :=
  runs_of_run fun t => run_createRelationType t i.id i.properties i.domain i.range

theorem ContextItem.runs (i : ContextItem) : Runs i.write i.step := fun t =>
  run_bind_of_run (run_onStore t (Store.InPlace.run_addNode _ _)) _

theorem ContextRelationItem.runs (i : ContextRelationItem) : Runs i.write i.step :=
  runs_of_run fun t => run_relate t .contexts (Contexts.relation i.source i.target i.type i.properties)

theorem EntityItem.runs (i : EntityItem) : Runs i.write i.step := fun t =>
  run_bind_of_run (run_onStore t (Store.InPlace.run_addNode _ _)) _

theorem RelationItem.runs (fresh : String) (i : RelationItem) : Runs (i.write fresh) (i.step fresh) :=
  runs_of_run fun t => run_relate t .instances
    (Instances.relation (i.id.getD fresh) i.source i.type i.target i.properties)

theorem IndexItem.runs (i : IndexItem) : Runs i.write i.step := fun t =>
  run_createIndex t i.layer.name i.name i.kind i.paths

theorem runs_map {α : Type} {w : α → Write} {f : α → Step} (h : ∀ i, Runs (w i) (f i)) (is : List α) :
    List.Forall₂ Runs (is.map w) (is.map f) := by
  rw [List.forall₂_map_left_iff, List.forall₂_map_right_iff, List.forall₂_same]
  exact fun i _ => h i

theorem runs_writes (fresh : Nat → String) (s : Seed) : List.Forall₂ Runs (s.writes fresh) (s.steps fresh) := by
  have happend {ws vs : List Write} {fs gs : List Step} (h : List.Forall₂ Runs ws fs) (h' : List.Forall₂ Runs vs gs) :
      List.Forall₂ Runs (ws ++ vs) (fs ++ gs) := List.rel_append h h'
  have hrelations := runs_map (fun p : RelationItem × Nat => p.1.runs (fresh p.2)) s.relations.zipIdx
  exact happend (happend (happend (happend (happend (happend (runs_map ConceptItem.runs s.concepts)
    (runs_map RelationTypeItem.runs s.relationTypes)) (runs_map ContextItem.runs s.contexts))
    (runs_map ContextRelationItem.runs s.contextRelations)) (runs_map EntityItem.runs s.entities)) hrelations)
    (runs_map IndexItem.runs s.indexes)

end

/-! ## Application -/

def report : Trinity × Option Knowledge.Error → Except Knowledge.Error Unit × Trinity
  | (t, none) => (.ok (), t)
  | (t, some e) => (.error e, t)

theorem run_takeWrites {ws : List Write} {fs : List Step} (h : List.Forall₂ Runs ws fs) (t : Trinity) :
    (InPlace.takeWrites ws).run t = report (takeSteps fs t) := by
  induction h generalizing t with
  | nil => rfl
  | @cons w f ws fs hw _ ih =>
    unfold InPlace.takeWrites takeSteps
    cases hf : f t with
    | error e =>
      rw [run_bind_of_run (hw.of_error hf)]
      rfl
    | ok u =>
      rw [run_bind_of_run (hw.of_ok hf)]
      exact ih u

theorem run_apply (fresh : Nat → String) (s : Seed) (t : Trinity) :
    (InPlace.apply fresh s).run t = report (s.apply fresh t) := by
  have htake := run_takeWrites (runs_writes fresh s) t
  unfold InPlace.apply apply
  generalize takeSteps (s.steps fresh) t = r at htake ⊢
  rw [run_bind_of_run htake]
  obtain ⟨u, _ | e⟩ := r
  · rfl
  · rfl

theorem report_eq_ok {r : Trinity × Option Knowledge.Error} {u : Trinity} : report r = (.ok (), u) ↔ r = (u, none) := by
  obtain ⟨v, _ | e⟩ := r
  · simp [report]
  · simp [report]

theorem report_eq_error {r : Trinity × Option Knowledge.Error} {u : Trinity} {e : Knowledge.Error} :
    report r = (.error e, u) ↔ r = (u, some e) := by
  obtain ⟨v, _ | d⟩ := r
  · simp [report]
  · simp [report, and_comm]

theorem run_apply_eq_ok {fresh : Nat → String} {s : Seed} {t u : Trinity} :
    (InPlace.apply fresh s).run t = (.ok (), u) ↔ s.apply fresh t = (u, none) := by
  rw [run_apply]
  exact report_eq_ok

theorem run_apply_eq_error {fresh : Nat → String} {s : Seed} {t u : Trinity} {e : Knowledge.Error} :
    (InPlace.apply fresh s).run t = (.error e, u) ↔ s.apply fresh t = (u, some e) := by
  rw [run_apply]
  exact report_eq_error

end TriGraph.Seed
