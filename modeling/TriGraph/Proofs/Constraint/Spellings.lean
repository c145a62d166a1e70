import TriGraph.Proofs.Constraint.Reading

/-!
# Spellings of a test

What a property has to satisfy can be asked under its plain name, under the path through the bag, or in a list of
expected entries. For a name that is neither a path nor an attribute these come to one test.
-/

namespace TriGraph

def Place.attributeNames : List String :=
  ["id", "type", "properties", "source", "target"]

def Entity.Passes (e : Entity) (name : String) (q : Predicate) : Prop :=
  ∃ u, Catalog.get? name e.properties = some u ∧ q.test u = true

section
variable {find : NodeLookup} {e : Entity} {name : String}

theorem Place.attribute?_eq_none (h : name ∉ attributeNames) : attribute? find name e = none := by
  unfold attribute?
  split
  case h_6 => rfl
  all_goals exact absurd (by decide) h

theorem fieldValue?_eq_get? (h : name ∉ Place.attributeNames) :
    fieldValue? find e name = Catalog.get? name e.properties := by
  have hid : name ≠ "id" := fun hn => h (hn ▸ by decide)
  have htype : name ≠ "type" := fun hn => h (hn ▸ by decide)
  rw [fieldValue?, if_neg hid, if_neg htype, Place.attribute?_eq_none h]
  cases Catalog.get? name e.properties <;> rfl

theorem holds_plain (hd : '.' ∉ name.toList) (h : name ∉ Place.attributeNames) {q : Predicate} :
    (Clause.ofKey name q).holds find e = true ↔ e.Passes name q := by
  rw [holds_ofKey, keyValue?, if_neg (by simpa using hd), fieldValue?_eq_get? h]
  rfl

theorem holds_expected {v : Value} : (Clause.properties [(name, v)]).holds find e = true ↔ e.Passes name (.eq v) := by
  rw [Clause.holds, Constraint.hasProperties_cons]
  exact and_iff_left rfl

end

namespace Constraint

theorem holds_concat {s : Store} {e : Entity} {c : Constraint} {x : Clause} :
    s.holds (c ++ [x]) e = true ↔ s.holds c e = true ∧ x.holds (fun id => s.node? id) e = true := by
  unfold Store.holds Constraint.matches
  rw [clausesHold_append, clausesHold_singleton, Bool.and_eq_true]

/-- Whatever else a constraint asks, a test of a property is met by the same entities however it is spelled. -/
theorem spellings_agree {name : String} (hd : '.' ∉ name.toList) (hn : name ∉ Place.attributeNames) (s : Store)
    (e : Entity) (c : Constraint) (v : Value) :
    (s.holds (c.equals name v) e = s.holds (c.equals ("properties." ++ name) v) e ∧
      s.holds (c.equals name v) e = s.holds (c.withProperties [(name, v)]) e ∧
      (s.holds (c.equals name v) e = true ↔ s.holds c e = true ∧ e.Passes name (.eq v))) ∧
    ∀ op, s.holds (c.compare name op v) e = s.holds (c.compare ("properties." ++ name) op v) e ∧
      (s.holds (c.compare name op v) e = true ↔ s.holds c e = true ∧ e.Passes name (.compare op v)) := by
  have hplain : ∀ q, s.holds (c.test name q) e = true ↔ s.holds c e = true ∧ e.Passes name q := fun q =>
    holds_concat.trans (and_congr_right fun _ => holds_plain hd hn)
  have hdotted : ∀ q, s.holds (c.test ("properties." ++ name) q) e = true ↔ s.holds c e = true ∧ e.Passes name q :=
    fun q => holds_concat.trans (and_congr_right fun _ => holds_property hd)
  have hlisted : s.holds (c.withProperties [(name, v)]) e = true ↔ s.holds c e = true ∧ e.Passes name (.eq v) :=
    holds_concat.trans (and_congr_right fun _ => holds_expected)
  refine ⟨⟨?_, ?_, hplain _⟩, fun op => ⟨?_, hplain _⟩⟩
  · exact Bool.eq_iff_iff.mpr ((hplain _).trans (hdotted _).symm)
  · exact Bool.eq_iff_iff.mpr ((hplain _).trans hlisted.symm)
  · exact Bool.eq_iff_iff.mpr ((hplain _).trans (hdotted _).symm)

def weighed : Entity :=
  .edge { id := "e", source := "a", target := "b", type := "LINK", properties := [("weight", .int 2)] }

def links : Constraint :=
  Constraint.equals "type" (.text "LINK") []

theorem spellings_agree_weight :
    '.' ∉ "weight".toList ∧ "weight" ∉ Place.attributeNames ∧
      (∀ k ∈ [links.equals "weight" (.float (Number.ofInt 2)),
          links.equals ("properties." ++ "weight") (.float (Number.ofInt 2)),
          links.withProperties [("weight", .float (Number.ofInt 2))]], (Store.new "g" []).holds k weighed = true) ∧
      (∀ k ∈ [links.compare "weight" .gt (.float (Number.ofInt 2)),
          links.compare ("properties." ++ "weight") .gt (.float (Number.ofInt 2))],
        (Store.new "g" []).holds k weighed = false) := by
  have hd : '.' ∉ "weight".toList := by decide
  have hn : "weight" ∉ Place.attributeNames := by decide
  obtain ⟨⟨hdotted, hlisted, hiff⟩, hcompare⟩ := spellings_agree hd hn (Store.new "g" []) weighed links
    (.float (Number.ofInt 2))
  have hplain : (Store.new "g" []).holds (links.equals "weight" (.float (Number.ofInt 2))) weighed = true :=
    hiff.mpr ⟨by decide +kernel, .int 2, rfl, by decide +kernel⟩
  have hgreater : (Store.new "g" []).holds (links.compare "weight" .gt (.float (Number.ofInt 2))) weighed = false := by
    decide +kernel
  refine ⟨hd, hn, ?_, ?_⟩
  · simp only [List.forall_mem_cons]
    exact ⟨hplain, hdotted ▸ hplain, hlisted ▸ hplain, fun _ h => (nomatch h)⟩
  · simp only [List.forall_mem_cons]
    exact ⟨hgreater, (hcompare .gt).1 ▸ hgreater, fun _ h => (nomatch h)⟩

end Constraint

end TriGraph
