import TriGraph.Proofs.Seed.Steps

/-!
# Seeds applied twice

When a seed is applied once more, all that it refers to is there, every id has its place, and the last version of each
id, which is written last again, is the one that it finds.
-/

namespace TriGraph.Seed

open Trinity (AllReady)

/-- A seed applied with success is applied with success once more and leaves the trinity exactly as it was. -/
theorem apply_again {t u : Trinity} (ht : t.Built) {s : Seed} (hi : s.indexes = []) (hs : s.Explicit)
    {fresh : Nat → String} (h : s.apply fresh t = (u, none)) (fresh' : Nat → String) :
    s.apply fresh' u = (u, none) := by
  obtain ⟨v, hv, rfl⟩ := apply_eq_ok.mp h
  obtain ⟨xs, hsound, hok⟩ := takeSteps_described fun f hf => describes_of_mem_steps fresh hi hf
  obtain ⟨hready, rfl⟩ := (hok t v).mp hv
  have hready' : AllReady xs (t.takeAll xs).refresh := hready.mono (Trinity.covers_takeAll xs t)
  rw [hs.apply_eq fresh' fresh, apply_eq_ok]
  refine ⟨(t.takeAll xs).refresh.takeAll xs, (hok _ _).mpr ⟨hready', rfl⟩, ?_⟩
  rw [Trinity.refresh_takeAll, Trinity.takeAll_again ht.store hsound hready]
  rfl

def overlapping : Seed where
  concepts := [⟨"c", [], []⟩, ⟨"b_ISA_c", [], []⟩, ⟨"a", [("p", .int 1)], ["b_ISA_c"]⟩, ⟨"a_ISA_b", [], ["c", "c"]⟩,
    ⟨"a", [("p", .int 2)], []⟩]
  relationTypes := [⟨"a", [], some "b_ISA_c", some "a"⟩]
  contexts := [⟨"old", .temporal, []⟩, ⟨"new", .custom "Era", []⟩]
  contextRelations := [⟨"old", "new", "REFINES", []⟩, ⟨"old", "new", "REFINES", [("since", .int 1300)]⟩]
  entities := [⟨"e", "a", []⟩, ⟨"f", "c", []⟩, ⟨"e", "c", []⟩]
  relations := [⟨some "r", "e", "a", "f", []⟩, ⟨some "r", "f", "a", "e", []⟩]

def settled : Trinity :=
  { (Trinity.new "Library").mapStore .instances (·.run [.addNode (Instances.entity "f" "a" []),
      .addNode (Instances.entity "e" "a" [])]) with
    memo := [(⟨Builtin.instantiation, .left, "a"⟩, "f")] }

theorem built_settled : settled.Built :=
  ((Trinity.Built.new "Library").run .instances _).memo _

theorem apply_overlapping :
    overlapping.apply (fun _ => "") settled = ((overlapping.apply (fun _ => "") settled).1, none) := by
  have h : (overlapping.apply (fun _ => "") settled).2.isNone = true := by decide +kernel
  exact Prod.ext rfl (Option.isNone_iff_eq_none.mp h)

theorem apply_again_overlapping : settled.Built ∧ overlapping.indexes = [] ∧ overlapping.Explicit ∧
    overlapping.apply (fun _ => "") settled = ((overlapping.apply (fun _ => "") settled).1, none) ∧
    overlapping.apply (fun _ => "fresh") (overlapping.apply (fun _ => "") settled).1 =
      ((overlapping.apply (fun _ => "") settled).1, none) := by
  have hs : overlapping.Explicit := by
    unfold Explicit
    decide
  exact ⟨built_settled, rfl, hs, apply_overlapping, apply_again built_settled rfl hs apply_overlapping _⟩

-- the first place of an id counts, and the last edge of an id
example : ((overlapping.apply (fun _ => "") settled).1.graphs.instances.allNodes.map (·.id),
    (overlapping.apply (fun _ => "") settled).1.graphs.ontology.allEdges.map fun e => (e.source, e.target)) =
      (["f", "e"], [("a_ISA_b", "c"), ("b_ISA_c", "a"), ("a", "a")]) := by
  decide +kernel

end TriGraph.Seed
