import TriGraph.Proofs.Number.Exact
import TriGraph.Value

/-!
# Order of values

Turning a comparison round turns its result round, so one value is at least another just when the other is at most it.
Only scalars can be compared at all, and of these the equal ones are those that compare as equal.
-/

namespace TriGraph

theorem Number.compare?_swap (x y : Float) : (compare? x y).map Ordering.swap = compare? y x := by
  unfold compare?
  rw [Bool.or_comm]
  split
  · rfl
  · exact congrArg some Std.OrientedOrd.eq_swap.symm

theorem Number.isNaN_of_atMost {x y : Float} (h : atMost x y = true) : isNaN x = false ∧ isNaN y = false := by
  rw [← Bool.or_eq_false_iff, ← Bool.not_eq_true]
  intro hn
  have hc : compare? x y = none := if_pos hn
  rw [atMost, less, equal, hc] at h
  cases h

namespace Value

theorem compareNumbers?_swap (a b : Value) : (compareNumbers? a b).map Ordering.swap = compareNumbers? b a := by
  unfold compareNumbers?
  cases a.number? with
  | none => cases b.number? <;> rfl
  | some x =>
    cases b.number? with
    | none => rfl
    | some y => exact Number.compare?_swap x y

theorem compare?_swap (a b : Value) : (a.compare? b).map Ordering.swap = b.compare? a := by
  cases a with
  | text s =>
    cases b with
    | text t => simp only [compare?, Option.map_some, ← Std.OrientedOrd.eq_swap]
    | _ => simp only [compare?, compareNumbers?_swap]
  | bool x =>
    cases b with
    | bool y => simp only [compare?, Option.map_some, ← Std.OrientedOrd.eq_swap]
    | _ => simp only [compare?, compareNumbers?_swap]
  | int m =>
    cases b with
    | int n => simp only [compare?, Option.map_some, ← Std.OrientedOrd.eq_swap]
    | _ => simp only [compare?, compareNumbers?_swap]
  | _ => cases b <;> simp only [compare?, compareNumbers?_swap]

theorem atLeast_comm (a b : Value) : a.atLeast b = b.atMost a := by
  unfold atLeast atMost
  rw [← compare?_swap a b]
  rcases a.compare? b with _ | (_ | _ | _) <;> rfl

theorem beq_self_of_number {v : Value} {x : Float} (hv : v.number? = some x) (hx : Number.isNaN x = false) :
    (v == v) = true := by
  change same v v = true
  cases v with
  | int n => simp [same]
  | float y =>
    cases hv
    simp [same, sameNumber, number?, Number.equal_iff, hx]
  | _ => cases hv

/-! ## Scalars -/

def IsScalar : Value → Prop
  | .list _ => False
  | .object _ => False
  | _ => True

theorem isScalar_of_number? {v : Value} {x : Float} (h : v.number? = some x) : v.IsScalar := by
  cases v with
  | list => cases h
  | object => cases h
  | _ => trivial

theorem isScalar_of_compareNumbers? {a b : Value} {o : Ordering} (h : compareNumbers? a b = some o) :
    a.IsScalar ∧ b.IsScalar := by
  unfold compareNumbers? at h
  split at h
  · next hx hy => exact ⟨isScalar_of_number? hx, isScalar_of_number? hy⟩
  · cases h

theorem isScalar_of_compare? {a b : Value} {o : Ordering} (h : a.compare? b = some o) : a.IsScalar ∧ b.IsScalar := by
  unfold compare? at h
  split at h
  · exact ⟨trivial, trivial⟩
  · exact ⟨trivial, trivial⟩
  · exact ⟨trivial, trivial⟩
  · exact isScalar_of_compareNumbers? h

theorem sameNumber_iff (a b : Value) : sameNumber a b = true ↔ compareNumbers? a b = some .eq := by
  unfold sameNumber compareNumbers? Number.equal
  split <;> simp

theorem beq_iff_compare? {a b : Value} (ha : a.IsScalar) (hb : b.IsScalar) :
    (a == b) = true ↔ a.compare? b = some .eq := by
  change same a b = true ↔ _
  cases a with
  | text s =>
    cases b with
    | text t => simp only [same, compare?, beq_iff_eq, Option.some.injEq, Std.LawfulEqOrd.compare_eq_iff_eq]
    | list => cases hb
    | object => cases hb
    | _ => simp only [same, compare?, sameNumber_iff]
  | bool x =>
    cases b with
    | bool y => simp only [same, compare?, beq_iff_eq, Option.some.injEq, Std.LawfulEqOrd.compare_eq_iff_eq]
    | list => cases hb
    | object => cases hb
    | _ => simp only [same, compare?, sameNumber_iff]
  | int m =>
    cases b with
    | int n =>
      simp only [same, compare?, beq_iff_eq, Option.some.injEq, Std.LawfulEqOrd.compare_eq_iff_eq, ← Int64.toInt_inj]
    | list => cases hb
    | object => cases hb
    | _ => simp only [same, compare?, sameNumber_iff]
  | float x => cases b <;> simp only [same, compare?, sameNumber_iff]
  | list => cases ha
  | object => cases ha

end Value

end TriGraph
