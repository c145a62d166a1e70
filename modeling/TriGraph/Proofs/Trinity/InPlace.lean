import TriGraph.Proofs.Store.InPlace
import TriGraph.Proofs.Trinity.Writes

/-!
# Writes to a trinity in place

All that may be missing is looked for first, and no link of a write that has passed its checks can fail. So what a
write reports to have failed has left everything as it was.
-/

namespace TriGraph.Trinity

/-! ## What a write can report -/

inductive Attempt where
  | on (l : Layer) (a : Store.Attempt)
  | createConcept (id : String) (properties : Properties) (parents : List String)
  | createRelationType (id : String) (properties : Properties) (domain range : Option String)
  | relateContexts (source target type : String) (properties : Properties)
  | createRelation (id source type target : String) (properties : Properties)
  | createIndex (graph name : String) (kind : Index.Kind) (paths : List String)

namespace Attempt

abbrev Report : Attempt → Type
  | .on _ a => a.Report
  | .createConcept .. | .createRelationType .. => Except Knowledge.Error String
  | .relateContexts .. | .createRelation .. => Except Knowledge.Error Edge
  | .createIndex .. => Except Knowledge.Error Unit

def write : (a : Attempt) → StateM Trinity a.Report
  | .on l a => InPlace.onStore l a.write
  | .createConcept id properties parents => InPlace.createConcept id properties parents
  | .createRelationType id properties domain range => InPlace.createRelationType id properties domain range
  | .relateContexts source target type properties => InPlace.relateContexts source target type properties
  | .createRelation id source type target properties => InPlace.createRelation id source type target properties
  | .createIndex graph name kind paths => InPlace.createIndex graph name kind paths

def failed : (a : Attempt) → a.Report → Bool
  | .on _ a, r => a.failed r
  | .createConcept .., r => !r.isOk
  | .createRelationType .., r => !r.isOk
  | .relateContexts .., r => !r.isOk
  | .createRelation .., r => !r.isOk
  | .createIndex .., r => !r.isOk

def outcome (t : Trinity) : Attempt → Option Trinity
  | .on l a => (a.outcome (t.graphs.store l)).map (t.setStore l ·)
  | .createConcept id properties parents => (t.createConcept id properties parents).toOption
  | .createRelationType id properties domain range => (t.createRelationType id properties domain range).toOption
  | .relateContexts source target type properties => (t.relateContexts source target type properties).toOption
  | .createRelation id source type target properties => (t.createRelation id source type target properties).toOption
  | .createIndex graph name kind paths => (t.createIndex graph name kind paths).toOption

end Attempt

/-! ## Each write -/

theorem setStore_store (t : Trinity) (l : Layer) : t.setStore l (t.graphs.store l) = t := by
  cases l <;> rfl

namespace InPlace

variable (t : Trinity)

theorem run_onStore {α : Type} {l : Layer} {w : StateM Store α} {x : α} {s : Store}
    (h : w.run (t.graphs.store l) = (x, s)) : (onStore l w).run t = (x, t.setStore l s) := by
  unfold onStore
  rw [run_get_bind, h]
  rfl

theorem run_defineIsA (id : String) (parents : List String) :
    (parents.forM fun parent => discard (onStore .ontology (Ontology.InPlace.defineIsA id parent))).run t =
      ((), t.mapStore .ontology fun s => parents.foldl (fun s parent => linkIsA id parent s) s) := by
  induction parents generalizing t with
  | nil => rfl
  | cons parent parents ih =>
    have hstep : (discard (onStore .ontology (Ontology.InPlace.defineIsA id parent))).run t =
        ((), t.mapStore .ontology (linkIsA id parent)) :=
      run_discard (run_onStore t (Store.InPlace.run_link _ _))
    exact (run_bind_of_run hstep _).trans (ih _)

theorem run_createConcept (id : String) (properties : Properties) (parents : List String) :
    (createConcept id properties parents).run t =
      ((t.createConcept id properties parents).map fun _ => id,
        (t.createConcept id properties parents).toOption.getD t) := by
  unfold createConcept Trinity.createConcept
  rw [run_get_bind]
  dsimp only
  cases parents.forM fun parent => requireNodes t.graphs.ontology (Ontology.isAEdge id parent).id [parent] with
  | error e => rfl
  | ok _ =>
    dsimp only
    rw [run_bind_of_run (run_onStore t (Store.InPlace.run_addNode _ _)), run_bind_of_run (run_defineIsA _ id parents)]
    rfl

theorem run_createRelationType (id : String) (properties : Properties) (domain range : Option String) :
    (createRelationType id properties domain range).run t =
      ((t.createRelationType id properties domain range).map fun _ => id,
        (t.createRelationType id properties domain range).toOption.getD t) := by
  unfold createRelationType Trinity.createRelationType
  rw [run_get_bind]
  cases requireNodes t.graphs.ontology id (domain.toList ++ range.toList) with
  | error e => rfl
  | ok _ =>
    dsimp only
    rw [run_bind_of_run (run_onStore t (Store.InPlace.run_addNode _ _))]
    cases domain with
    | none => rfl
    | some d =>
      cases range with
      | none => rfl
      | some r =>
        dsimp only
        rw [run_bind_of_run (run_discard (run_onStore _ (Store.InPlace.run_defineRelationship _ d id r)))]
        let n := Ontology.relation id properties
        let s := (t.graphs.store .ontology).addNode n
        change (_, t.setStore .ontology (((Ontology.defineRelationship d id r s).map (·.2)).getD s)) = _
        dsimp only [bind, Except.bind, mapStore, s]
        cases Ontology.defineRelationship d id r ((t.graphs.store .ontology).addNode n) with
        | none => rfl
        | some _ => rfl

theorem addEdge_eq (l : Layer) (e : Edge) : t.addEdge l e =
    (requireNodes (t.graphs.store l) e.id [e.source, e.target]).map fun _ =>
      t.setStore l ((t.graphs.store l).putEdge e) := by
  unfold addEdge Store.addEdge requireNodes
  rw [List.find?_cons, List.find?_cons, List.find?_nil]
  cases (t.graphs.store l).hasNode e.source with
  | false => rfl
  | true =>
    cases (t.graphs.store l).hasNode e.target with
    | false => rfl
    | true => rfl

theorem run_relate (l : Layer) (e : Edge) :
    (relate l e).run t = ((t.addEdge l e).map fun _ => e, (t.addEdge l e).toOption.getD t) := by
  unfold relate
  rw [run_get_bind, addEdge_eq]
  cases h : requireNodes (t.graphs.store l) e.id [e.source, e.target] with
  | error err => rfl
  | ok _ =>
    have hends := requireNodes_eq_ok.mp h
    have hlink := Store.InPlace.run_link_of_present (hends e.source (by simp)) (hends e.target (by simp))
    dsimp only
    rw [run_bind_of_run (run_onStore t hlink)]
    rfl

theorem run_createIndex (graph name : String) (kind : Index.Kind) (paths : List String) :
    (createIndex graph name kind paths).run t =
      ((t.createIndex graph name kind paths).map fun _ => (),
        (t.createIndex graph name kind paths).toOption.getD t) := by
  unfold createIndex Trinity.createIndex
  cases Knowledge.layer graph with
  | error e => rfl
  | ok l =>
    dsimp only
    rw [run_bind_of_run (run_onStore t (Store.InPlace.run_createIndex _ name kind paths))]
    dsimp only [bind, Except.bind]
    cases (t.graphs.store l).createIndex name kind paths with
    | error e =>
      have hsame : t.setStore l (t.graphs.store l) = t := setStore_store t l
      change (_, t.setStore l (t.graphs.store l)) = (_, t)
      rw [hsame]
      rfl
    | ok s => rfl

end InPlace

/-- A write in place reports a failure just when the write that returns a new trinity refuses, and it leaves what that
one returns, or else the trinity as it was. -/
theorem run_write (a : Attempt) {t : Trinity} (ht : ∀ l, (t.graphs.store l).Linked) :
    a.failed (a.write.run t).1 = (a.outcome t).isNone ∧ (a.write.run t).2 = (a.outcome t).getD t := by
  have hresult : ∀ {α : Type} {w : StateM Trinity (Except Knowledge.Error α)} {r : Except Knowledge.Error Trinity}
      {x : α}, w.run t = (r.map fun _ => x, r.toOption.getD t) →
        (!(w.run t).1.isOk) = r.toOption.isNone ∧ (w.run t).2 = r.toOption.getD t := by
    intro α w r x h
    rw [h]
    cases r with
    | error err => exact ⟨rfl, rfl⟩
    | ok u => exact ⟨rfl, rfl⟩
  cases a with
  | on l a =>
    obtain ⟨hreport, hstore⟩ := Store.run_write a (ht l)
    refine ⟨hreport.trans Option.isNone_map.symm, ?_⟩
    change t.setStore l (a.write.run (t.graphs.store l)).2 =
      ((a.outcome (t.graphs.store l)).map (t.setStore l ·)).getD t
    rw [hstore]
    cases a.outcome (t.graphs.store l) with
    | none => exact setStore_store t l
    | some s => rfl
  | createConcept id properties parents => exact hresult (InPlace.run_createConcept t id properties parents)
  | createRelationType id properties domain range =>
    exact hresult (InPlace.run_createRelationType t id properties domain range)
  | relateContexts source target type properties => exact hresult (InPlace.run_relate t _ _)
  | createRelation id source type target properties => exact hresult (InPlace.run_relate t _ _)
  | createIndex graph name kind paths => exact hresult (InPlace.run_createIndex t graph name kind paths)

/-- A write that reports a failure has left the store or the trinity exactly as it was. -/
theorem unchanged_of_failed :
    (∀ s : Store, s.Reachable → ∀ a : Store.Attempt, a.failed (a.write.run s).1 = true → (a.write.run s).2 = s) ∧
    ∀ t : Trinity, t.Built → ∀ a : Attempt, a.failed (a.write.run t).1 = true → (a.write.run t).2 = t := by
  refine ⟨fun s hs a hf => ?_, fun t ht a hf => ?_⟩
  · obtain ⟨hreport, hstore⟩ := Store.run_write a hs.linked
    rw [hreport, Option.isNone_iff_eq_none] at hf
    rw [hstore, hf]
    rfl
  · obtain ⟨hreport, htrinity⟩ := run_write a fun l => (ht.store l).linked
    rw [hreport, Option.isNone_iff_eq_none] at hf
    rw [htrinity, hf]
    rfl

def founded : Trinity :=
  (Trinity.new "Library").mapStore .ontology
    (·.run [.addNode (Ontology.concept "Author" []), .addNode (Ontology.concept "Book" [])])

theorem built_founded : founded.Built :=
  (Built.new "Library").run .ontology _

theorem unchanged_of_failed_founded :
    founded.Built ∧ (founded.graphs.store .ontology).Reachable ∧
    ((Attempt.createConcept "Poet" [] ["Author", "Bard"]).write.run founded).2 = founded ∧
    ((Attempt.on .ontology (.defineRelationship "Author" "wrote" "Book")).write.run founded).2 = founded ∧
    ((Attempt.createIndex "instance" "both" .hash ["node.type", "edge.type"]).write.run founded).2 = founded ∧
    ((Store.Attempt.removeNode "Poet").write.run (founded.graphs.store .ontology)).2 =
      founded.graphs.store .ontology := by
  have hstore := built_founded.store .ontology
  exact ⟨built_founded, hstore, unchanged_of_failed.2 founded built_founded _ (by decide +kernel),
    unchanged_of_failed.2 founded built_founded _ (by decide +kernel),
    unchanged_of_failed.2 founded built_founded _ (by decide +kernel),
    unchanged_of_failed.1 _ hstore (.removeNode "Poet") (by decide +kernel)⟩

end TriGraph.Trinity
