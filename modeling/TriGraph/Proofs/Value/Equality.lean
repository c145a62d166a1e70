import TriGraph.Proofs.Number.Exact
import TriGraph.Value

/-!
# Equality of values

An integer and a float meet as floats whichever comes first, so it does not matter which of two values is compared
with the other. It does matter that they are two: a value with NaN in it is not equal to itself.
-/

namespace TriGraph.Value

theorem sameNumber_comm (a b : Value) : sameNumber a b = sameNumber b a := by
  unfold sameNumber
  cases a.number? with
  | none => cases b.number? <;> rfl
  | some x =>
    cases b.number? with
    | none => rfl
    | some y => exact Number.equal_comm x y

mutual
theorem same_comm (a b : Value) : same a b = same b a := by
  cases a with
  | text s =>
    cases b with
    | text t => simp only [same, BEq.comm (a := s)]
    | _ => simp only [same, sameNumber_comm]
  | int m =>
    cases b with
    | int n => simp only [same, BEq.comm (a := m)]
    | _ => simp only [same, sameNumber_comm]
  | bool x =>
    cases b with
    | bool y => simp only [same, BEq.comm (a := x)]
    | _ => simp only [same, sameNumber_comm]
  | list xs =>
    cases b with
    | list ys => simp only [same, sameItems_comm xs ys]
    | _ => simp only [same, sameNumber_comm]
  | object fs =>
    cases b with
    | object gs => simp only [same, sameFields_comm fs gs]
    | _ => simp only [same, sameNumber_comm]
  | float x => cases b <;> simp only [same, sameNumber_comm]
theorem sameItems_comm (xs ys : List Value) : sameItems xs ys = sameItems ys xs := by
  cases xs with
  | nil => cases ys <;> rfl
  | cons x xs =>
    cases ys with
    | nil => rfl
    | cons y ys => simp only [sameItems, same_comm x y, sameItems_comm xs ys]
theorem sameFields_comm (fs gs : List (String × Value)) : sameFields fs gs = sameFields gs fs := by
  cases fs with
  | nil => cases gs <;> rfl
  | cons f fs =>
    obtain ⟨k, x⟩ := f
    cases gs with
    | nil => rfl
    | cons g gs =>
      obtain ⟨l, y⟩ := g
      simp only [sameFields, same_comm x y, sameFields_comm fs gs, BEq.comm (a := k)]
end

theorem beq_comm (a b : Value) : (a == b) = (b == a) :=
  same_comm a b

theorem optionBeq_comm (a b : Option Value) : (a == b) = (b == a) := by
  cases a with
  | none => cases b <;> rfl
  | some x =>
    cases b with
    | none => rfl
    | some y => exact beq_comm x y

end TriGraph.Value
