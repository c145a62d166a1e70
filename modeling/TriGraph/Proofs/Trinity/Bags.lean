import TriGraph.Proofs.Store.Changes
import TriGraph.Proofs.Trinity.Writes

/-!
# Bags in order

A store takes bags as they come, so its bags are in order if all that came with commands were. A trinity is tidy if no
command has ever brought a bag that is not in order.
-/

namespace TriGraph

namespace Store

def Command.Tidy : Command → Prop
  | .addNode n => Catalog.Sorted n.properties
  | .addEdge e => Catalog.Sorted e.properties
  | _ => True

structure Tidy (s : Store) : Prop where
  nodes : ∀ n ∈ s.allNodes, Catalog.Sorted n.properties
  edges : ∀ e ∈ s.allEdges, Catalog.Sorted e.properties

theorem tidy_new (name : String) (indexes : List (String × Index)) : (new name indexes).Tidy :=
  ⟨fun _ h => (nomatch h), fun _ h => (nomatch h)⟩

theorem Command.Tidy.bears {c : Command} (h : c.Tidy) : c.Bears Catalog.Sorted fun _ => True := by
  cases c with
  | addNode n => exact h
  | addEdge e => exact h
  | _ => trivial

theorem tidy_iff {s : Store} : s.Tidy ↔ ∀ d, s.Contains d → Catalog.Sorted d.properties := by
  constructor
  · intro h d hd
    cases d with
    | node n => exact h.nodes n hd
    | edge e => exact h.edges e hd
  · exact fun h => ⟨fun n hn => h (.node n) hn, fun e he => h (.edge e) he⟩

theorem Tidy.step {s : Store} (h : s.Tidy) (hl : s.Linked) {c : Command} (hc : c.Tidy) : (s.step c).Tidy :=
  tidy_iff.mpr <| bags_step List.Pairwise.nil (fun _ name v hps _ => Catalog.Sorted.insert hps name v) hl
    (tidy_iff.mp h) hc.bears

end Store

/-! ## Trinities -/

namespace Trinity

inductive Tidy : Trinity → Prop where
  | start (name : String) : Tidy { name }
  | write {t : Trinity} (h : Tidy t) (l : Layer) {c : Store.Command} (hc : c.Tidy) : Tidy (t.mapStore l (·.step c))
  | register {t : Trinity} (h : Tidy t) (a : Adjunction) : Tidy (t.register a)
  | memo {t : Trinity} (h : Tidy t) (m : Memo) : Tidy { t with memo := m }

namespace Tidy

variable {t : Trinity}

theorem built (h : t.Tidy) : t.Built := by
  induction h with
  | start name => exact .start name
  | write _ l _ ih => exact ih.write l _
  | register _ a ih => exact ih.register a
  | memo _ m ih => exact ih.memo m

theorem store (h : t.Tidy) (l : Layer) : (t.graphs.store l).Tidy := by
  induction h with
  | start name => cases l <;> exact Store.tidy_new _ _
  | @write t h l' c hc ih =>
    have hs : (t.mapStore l' (·.step c)).graphs.store l = if l' = l then (t.graphs.store l').step c else t.graphs.store l :=
      Graphs.store_setStore l' l _ _
    rw [hs]
    by_cases hl : l' = l
    · subst hl
      simpa using ih.step (h.built.store l').linked hc
    · simpa [hl] using ih
  | register _ _ ih => exact ih
  | memo _ _ ih => exact ih

theorem run (h : t.Tidy) (l : Layer) {cs : List Store.Command} (hcs : ∀ c ∈ cs, c.Tidy) :
    (t.mapStore l (·.run cs)).Tidy := by
  induction cs generalizing t with
  | nil => rwa [mapStore_run_nil]
  | cons c cs ih =>
    obtain ⟨hc, hcs⟩ := List.forall_mem_cons.mp hcs
    rw [mapStore_run_cons]
    exact ih (h.write l hc) hcs

theorem registerAll (h : t.Tidy) (as : List Adjunction) : (t.registerAll as).Tidy := by
  induction as generalizing t with
  | nil => exact h
  | cons a as ih => exact ih (h.register a)

theorem new (name : String) : (Trinity.new name).Tidy :=
  (start name).registerAll _

end Tidy

end Trinity

end TriGraph
