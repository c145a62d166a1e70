import TriGraph.Proofs.Seed.Steps

/-!
# Answers after a seed

A seed that is applied to its end leaves an empty memo. One that fails leaves the memo as it was, although what came
before the failing item is in the graphs; then answers may be those of the graphs as they were.
-/

namespace TriGraph

namespace Trinity

theorem fresh_iff {t : Trinity} (hk : t.knowledge.Named) :
    (∀ r, (t.read r).1 = (t.refresh.read r).1) ↔ t.knowledge.Truthful t.memo := by
  rw [← Knowledge.agree_nil_iff hk]
  constructor
  · intro h name a ha side id
    have hr := h (.apply name side id)
    rw [read_apply ha, read_apply (t := t.refresh) ha] at hr
    exact Except.ok.inj hr
  · intro h r
    exact (r.steady hk).answers t.memo [] h

end Trinity

namespace Seed

/-- Every question is answered as with an empty memo just when the seed was applied to its end or what was remembered
is true of the graphs that it has left. -/
theorem fresh_after_apply_iff {t u : Trinity} (ht : t.Reachable) {s : Seed} {fresh : Nat → String}
    {e : Option Knowledge.Error} (h : s.apply fresh t = (u, e)) :
    (∀ r, (u.read r).1 = (u.refresh.read r).1) ↔ e = none ∨ u.knowledge.Truthful t.memo := by
  have hkeep : ∀ {v e'}, takeSteps (s.steps fresh) t = (v, e') → v = t.withGraphs v.graphs :=
    withGraphs_of_takeSteps fun f hf _ _ => withGraphs_of_mem_steps hf
  cases e with
  | none =>
    obtain ⟨v, -, rfl⟩ := apply_eq_ok.mp h
    exact iff_of_true (fun _ => rfl) (Or.inl rfl)
  | some e =>
    have hu := hkeep (apply_eq_error.mp h)
    have hnamed : u.knowledge.Named := by
      rw [hu]
      exact ht.named
    have hmemo : u.memo = t.memo := by
      rw [hu]
      rfl
    rw [Trinity.fresh_iff hnamed, hmemo]
    simp

def asked : Trinity :=
  (Trinity.read (.apply Builtin.instantiation .left "Author")
    (((Trinity.new "Library").mapStore .ontology (·.run [.addNode (Ontology.concept "Author" [])])).mapStore .instances
      (·.run [.addNode (Instances.entity "marlowe" "Author" [])]))).2

theorem built_asked : asked.Built :=
  (((Trinity.Built.new "Library").run .ontology _).run .instances _).memo _

def usurping : Seed where
  entities := [⟨"marlowe", "Poet", []⟩, ⟨"kyd", "Author", []⟩]
  relations := [⟨some "w", "ghost", "wrote", "kyd", []⟩]

theorem apply_usurping : usurping.apply (fun _ => "") asked =
    ((usurping.apply (fun _ => "") asked).1, some (.graph (.missingEndpoint "w" "ghost"))) :=
  Prod.ext rfl (by rfl)

theorem fresh_after_apply_iff_usurping : asked.Reachable ∧
    usurping.apply (fun _ => "") asked =
      ((usurping.apply (fun _ => "") asked).1, some (.graph (.missingEndpoint "w" "ghost"))) ∧
    ((∀ r, ((usurping.apply (fun _ => "") asked).1.read r).1 = ((usurping.apply (fun _ => "") asked).1.refresh.read r).1) ↔
      (usurping.apply (fun _ => "") asked).1.knowledge.Truthful asked.memo) :=
  ⟨built_asked.reachable, apply_usurping,
    (fresh_after_apply_iff built_asked.reachable apply_usurping).trans (or_iff_right (nomatch ·))⟩

/-- After the failure the author is answered who is none any more. -/
theorem stale_after_apply : asked.Built ∧ (usurping.apply (fun _ => "") asked).2.isSome = true ∧
    ¬∀ r, ((usurping.apply (fun _ => "") asked).1.read r).1 =
      ((usurping.apply (fun _ => "") asked).1.refresh.read r).1 := by
  refine ⟨built_asked, by decide +kernel, fun h => ?_⟩
  have hr := h (.apply Builtin.instantiation .left "Author")
  have hkept : ((usurping.apply (fun _ => "") asked).1.read (.apply Builtin.instantiation .left "Author")).1.toOption =
      some (some "marlowe") := by decide +kernel
  have hfresh : ((usurping.apply (fun _ => "") asked).1.refresh.read
      (.apply Builtin.instantiation .left "Author")).1.toOption = some (some "kyd") := by decide +kernel
  rw [hr, hfresh] at hkept
  exact absurd hkept (by decide)

end Seed

end TriGraph
