import TriGraph.Proofs.Constraint.Spellings
import TriGraph.Proofs.Value.Order

/-!
# Comparisons of what a key leads to

A value is at least the operand just when it is greater, or equal to it and a scalar like it: equal lists, equal
objects and what has a NaN in it are not ordered at all.
-/

namespace TriGraph

namespace Value

variable {a b : Value}

theorem less_iff : a.less b = true ↔ a.compare? b = some .lt :=
  beq_iff_eq

theorem greater_iff : a.greater b = true ↔ a.compare? b = some .gt :=
  beq_iff_eq

theorem pairwise_not_both : List.Pairwise (fun p q => ¬(p = true ∧ q = true)) [a.less b, a == b, a.greater b] := by
  have hless : ¬(a.less b = true ∧ (a == b) = true) := by
    intro h
    have hlt := less_iff.mp h.1
    obtain ⟨ha, hb⟩ := isScalar_of_compare? hlt
    rw [(beq_iff_compare? ha hb).mp h.2] at hlt
    cases hlt
  have hgreater : ¬((a == b) = true ∧ a.greater b = true) := by
    intro h
    have hgt := greater_iff.mp h.2
    obtain ⟨ha, hb⟩ := isScalar_of_compare? hgt
    rw [(beq_iff_compare? ha hb).mp h.1] at hgt
    cases hgt
  have hboth : ¬(a.less b = true ∧ a.greater b = true) := by
    intro h
    have hlt := less_iff.mp h.1
    rw [greater_iff.mp h.2] at hlt
    cases hlt
  simp only [List.pairwise_cons, List.forall_mem_cons, List.not_mem_nil, List.Pairwise.nil]
  exact ⟨⟨hless, hboth, nofun⟩, ⟨hgreater, nofun⟩, nofun, trivial⟩

theorem compare?_eq_iff : a.compare? b = some .eq ↔ (a.IsScalar ∧ b.IsScalar) ∧ (a == b) = true := by
  constructor
  · intro h
    obtain ⟨ha, hb⟩ := isScalar_of_compare? h
    exact ⟨⟨ha, hb⟩, (beq_iff_compare? ha hb).mpr h⟩
  · intro h
    exact (beq_iff_compare? h.1.1 h.1.2).mp h.2

theorem atLeast_iff_greater_or :
    a.atLeast b = true ↔ a.greater b = true ∨ (a.IsScalar ∧ b.IsScalar) ∧ (a == b) = true := by
  rw [atLeast, Bool.or_eq_true, beq_iff_eq, beq_iff_eq, greater_iff, compare?_eq_iff]

theorem atMost_iff_less_or :
    a.atMost b = true ↔ a.less b = true ∨ (a.IsScalar ∧ b.IsScalar) ∧ (a == b) = true := by
  rw [atMost, Bool.or_eq_true, beq_iff_eq, beq_iff_eq, less_iff, compare?_eq_iff]

theorem compare?_of_not_scalar (h : ¬(a.IsScalar ∧ b.IsScalar)) : a.compare? b = none := by
  cases hc : a.compare? b with
  | none => rfl
  | some o => exact absurd (isScalar_of_compare? hc) h

end Value

theorem Predicate.test_of_not_scalar {x y : Value} (h : ¬(x.IsScalar ∧ y.IsScalar)) {op : Comparison}
    (hop : op ≠ .ne) : Predicate.test x (.compare op y) = false := by
  have hc := Value.compare?_of_not_scalar h
  cases op with
  | gt => rw [test, Value.greater, hc]; rfl
  | lt => rw [test, Value.less, hc]; rfl
  | gte => rw [test, Value.atLeast, hc]; rfl
  | lte => rw [test, Value.atMost, hc]; rfl
  | ne => exact absurd rfl hop

namespace Constraint

section
variable {s : Store} {e : Entity} {key : String} {q : Predicate}

theorem holds_test : s.holds (Constraint.test key q []) e = true ↔ ∃ x, e.Resolves s key x ∧ q.test x = true := by
  unfold Store.holds Constraint.matches
  rw [Constraint.test, List.nil_append, clausesHold_singleton, holds_ofKey]
  simp only [resolves_iff]

theorem holds_test_of_resolves {x : Value} (h : e.Resolves s key x) :
    s.holds (Constraint.test key q []) e = q.test x := by
  rw [Bool.eq_iff_iff, holds_test]
  constructor
  · rintro ⟨u, hu, hq⟩
    rwa [← hu.unique h]
  · exact fun hq => ⟨x, h, hq⟩

theorem holds_test_of_unresolved (h : ∀ x, ¬e.Resolves s key x) : s.holds (Constraint.test key q []) e = false := by
  rw [← Bool.not_eq_true, holds_test]
  rintro ⟨x, hx, -⟩
  exact h x hx

end

/-- What the six tests of a key with an operand have to do with each other. -/
theorem comparisons_fit (s : Store) (e : Entity) (key : String) (y : Value) :
    ((∀ x, ¬e.Resolves s key x) →
      s.holds (equals key y []) e = false ∧ ∀ op, s.holds (compare key op y []) e = false) ∧
    ∀ x, e.Resolves s key x →
      s.holds (compare key .ne y []) e = (!s.holds (equals key y []) e) ∧
      List.Pairwise (fun c d => ¬(s.holds c e = true ∧ s.holds d e = true))
        [compare key .lt y [], equals key y [], compare key .gt y []] ∧
      (s.holds (compare key .gte y []) e = true ↔ s.holds (compare key .gt y []) e = true ∨
        (x.IsScalar ∧ y.IsScalar) ∧ s.holds (equals key y []) e = true) ∧
      (s.holds (compare key .lte y []) e = true ↔ s.holds (compare key .lt y []) e = true ∨
        (x.IsScalar ∧ y.IsScalar) ∧ s.holds (equals key y []) e = true) ∧
      (¬(x.IsScalar ∧ y.IsScalar) → ∀ op, op ≠ .ne → s.holds (compare key op y []) e = false) := by
  refine ⟨fun h => ⟨holds_test_of_unresolved h, fun op => holds_test_of_unresolved h⟩, fun x hx => ?_⟩
  have hequals : s.holds (equals key y []) e = (x == y) := holds_test_of_resolves hx
  have hcompare : ∀ op, s.holds (compare key op y []) e = Predicate.test x (.compare op y) :=
    fun op => holds_test_of_resolves hx
  have hapart : List.Pairwise (fun c d => ¬(s.holds c e = true ∧ s.holds d e = true))
      [compare key .lt y [], equals key y [], compare key .gt y []] := by
    refine List.Pairwise.of_map (S := fun p q => ¬(p = true ∧ q = true)) (fun c => s.holds c e) (fun _ _ h => h) ?_
    simp only [List.map_cons, List.map_nil, hequals, hcompare]
    exact Value.pairwise_not_both
  rw [hequals]
  simp only [hcompare]
  exact ⟨rfl, hapart, Value.atLeast_iff_greater_or, Value.atMost_iff_less_or,
    fun h op hop => Predicate.test_of_not_scalar h hop⟩

theorem comparisons_fit_weight :
    (∀ x, ¬weighed.Resolves (Store.new "g" []) "properties.height" x) ∧
    (Store.new "g" []).holds (compare "properties.height" .ne (.float (Number.ofInt 2)) []) weighed = false ∧
    weighed.Resolves (Store.new "g" []) "properties.weight" (.int 2) ∧
    (Store.new "g" []).holds (equals "properties.weight" (.float (Number.ofInt 2)) []) weighed = true ∧
    (Store.new "g" []).holds (compare "properties.weight" .gte (.float (Number.ofInt 2)) []) weighed = true ∧
    (Store.new "g" []).holds (compare "properties.weight" .gt (.float (Number.ofInt 2)) []) weighed = false := by
  have hmissing : ∀ x, ¬weighed.Resolves (Store.new "g" []) "properties.height" x := by
    intro x hx
    have hnone : keyValue? (fun id => (Store.new "g" []).node? id) weighed "properties.height" = none := rfl
    cases hnone.symm.trans hx.value
  have hweight : weighed.Resolves (Store.new "g" []) "properties.weight" (.int 2) := resolves_iff.mpr rfl
  have hequals : (Store.new "g" []).holds (equals "properties.weight" (.float (Number.ofInt 2)) []) weighed = true := by
    decide +kernel
  obtain ⟨-, hdiffer⟩ := (comparisons_fit (Store.new "g" []) weighed "properties.height" (.float (Number.ofInt 2))).1
    hmissing
  obtain ⟨-, hapart, hatLeast, -⟩ := (comparisons_fit (Store.new "g" []) weighed "properties.weight"
    (.float (Number.ofInt 2))).2 _ hweight
  have hgreater := (List.pairwise_cons.mp (List.pairwise_cons.mp hapart).2).1 _ (List.mem_singleton_self _)
  exact ⟨hmissing, hdiffer .ne, hweight, hequals, hatLeast.mpr (Or.inr ⟨⟨trivial, trivial⟩, hequals⟩),
    Bool.eq_false_iff.mpr fun h => hgreater ⟨hequals, h⟩⟩

-- an equal list is not at least the other
example : Predicate.test (.list [.int 1]) (.eq (.list [.int 1])) = true ∧
    Predicate.test (.list [.int 1]) (.compare .gte (.list [.int 1])) = false := by decide +kernel

end Constraint

end TriGraph
