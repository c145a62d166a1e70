import TriGraph.Proofs.Knowledge.Reads
import TriGraph.Proofs.Store.History

/-!
# How trinities come about

Every write to a trinity is made of commands to one of its stores; adjunctions are registered at any time, and the
memo may remember anything, true of the graphs or not.
-/

namespace TriGraph

theorem Ontology.reachable_new : Ontology.new.Reachable := by
  refine .start _ fun e he => ?_
  simp only [List.mem_cons, List.not_mem_nil, or_false] at he
  rcases he with rfl | rfl
  · exact ⟨.ordered, ["edge.type"], rfl⟩
  · exact ⟨.hash, ["edge.type"], rfl⟩

theorem Instances.reachable_new : Instances.new.Reachable := by
  refine .start _ fun e he => ?_
  simp only [List.mem_cons, List.not_mem_nil, or_false] at he
  rcases he with rfl | rfl
  · have hp : Index.Path.parse "node.properties.conceptId" = .ok (.nodeProperty conceptId) := by
      have hr : Index.Path.rest? "node.properties." "node.properties.conceptId" = some conceptId := by decide +kernel
      simp [Index.Path.parse, hr]
    refine ⟨.hash, ["node.properties.conceptId"], ?_⟩
    simp only [Index.build, Index.Path.parseAll, List.mapM_cons, List.mapM_nil, hp]
    rfl
  · exact ⟨.hash, ["edge.type"], rfl⟩

theorem Contexts.reachable_new : Contexts.new.Reachable := by
  refine .start _ fun e he => ?_
  simp only [List.mem_cons, List.not_mem_nil, or_false] at he
  rcases he with rfl | rfl
  · exact ⟨.hash, ["node.type"], rfl⟩
  · exact ⟨.ordered, ["edge.type"], rfl⟩

namespace Trinity

theorem mapStore_run_nil (l : Layer) (t : Trinity) : t.mapStore l (·.run []) = t := by
  cases l <;> rfl

theorem mapStore_run_cons (l : Layer) (c : Store.Command) (cs : List Store.Command) (t : Trinity) :
    t.mapStore l (·.run (c :: cs)) = (t.mapStore l (·.step c)).mapStore l (·.run cs) := by
  cases l <;> rfl

inductive Built : Trinity → Prop where
  | start (name : String) : Built { name }
  | write {t : Trinity} (h : Built t) (l : Layer) (c : Store.Command) : Built (t.mapStore l (·.step c))
  | register {t : Trinity} (h : Built t) (a : Adjunction) : Built (t.register a)
  | memo {t : Trinity} (h : Built t) (m : Memo) : Built { t with memo := m }

namespace Built

variable {t : Trinity}

theorem reachable (h : t.Built) : t.Reachable := by
  induction h with
  | start name => exact .start name
  | write _ l c ih => exact ih.store l _
  | register _ a ih => exact ih.register a
  | memo _ m ih => exact ih.memo m

theorem store (h : t.Built) (l : Layer) : (t.graphs.store l).Reachable := by
  induction h with
  | start name =>
    cases l with
    | ontology => exact Ontology.reachable_new
    | instances => exact Instances.reachable_new
    | contexts => exact Contexts.reachable_new
  | @write t _ l' c ih =>
    by_cases hl : l = l'
    · subst hl
      have hs : ((t.mapStore l (·.step c)).graphs.store l) = (t.graphs.store l).step c := by cases l <;> rfl
      rw [hs]
      exact ih.step c
    · have hs : ((t.mapStore l' (·.step c)).graphs.store l) = t.graphs.store l := by
        cases l <;> cases l' <;> first | rfl | exact absurd rfl hl
      rw [hs]
      exact ih
  | register _ a ih => exact ih
  | memo _ m ih => exact ih

theorem run (h : t.Built) (l : Layer) (cs : List Store.Command) : (t.mapStore l (·.run cs)).Built := by
  induction cs generalizing t with
  | nil => rwa [mapStore_run_nil]
  | cons c cs ih =>
    rw [mapStore_run_cons]
    exact ih (h.write l c)

theorem registerAll (h : t.Built) (as : List Adjunction) : (t.registerAll as).Built := by
  induction as generalizing t with
  | nil => exact h
  | cons a as ih => exact ih (h.register a)

theorem new (name : String) : (Trinity.new name).Built :=
  (start name).registerAll _

end Built

end Trinity

end TriGraph
