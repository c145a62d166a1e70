import TriGraph.Proofs.Index.KeyOrder

/-!
# Keys and equality

Two values with the same key are equal. The converse fails only between an integer and a float that are different
numbers and become equal when the integer is rounded, which takes an integer beyond the 53 bits of a significand.
-/

namespace TriGraph

namespace Value

def isNaN : Value → Bool
  | .float x => Number.isNaN x
  | _ => false

/-- Whether an integer and a float are equal as floats though not as numbers. -/
def roundsTo : Value → Value → Bool
  | .int n, .float x => Number.equal (Number.ofInt n.toInt) x && !(Number.toInt? x == some n.toInt)
  | .float x, .int n => Number.equal x (Number.ofInt n.toInt) && !(Number.toInt? x == some n.toInt)
  | _, _ => false

theorem beq_text {u : Value} {s : String} : (u == .text s) = true ↔ u = .text s := by
  change same u (.text s) = true ↔ _
  cases u with
  | text t => simp [same]
  | _ => simp [same, sameNumber, number?]

end Value

namespace Index.Key

open Number

/-! ## Keys of floats -/

theorem fitsInt64_toInt (n : Int64) : fitsInt64 n.toInt = true := by
  have hlo := n.minValue_le_toInt
  have hhi := n.toInt_le
  simp only [fitsInt64, Bool.and_eq_true, decide_eq_true_eq]
  exact ⟨hlo, hhi⟩

theorem toInt_ofInt_of_fits {m : Int} (h : fitsInt64 m = true) : (Int64.ofInt m).toInt = m := by
  simp only [fitsInt64, Bool.and_eq_true, decide_eq_true_eq] at h
  refine Int64.toInt_ofInt_of_le h.1 (Int.lt_of_le_of_lt h.2 ?_)
  decide

theorem ofFloat_eq_int {x : Float} {n : Int64} : ofFloat x = .int n ↔ toInt? x = some n.toInt := by
  unfold ofFloat
  constructor
  · intro h
    split at h
    · rename_i m hm
      split at h
      · rename_i hf
        cases h
        rw [hm, toInt_ofInt_of_fits hf]
      · cases h
    · cases h
  · intro h
    rw [h]
    simp only [fitsInt64_toInt, if_true, Int64.ofInt_toInt]

theorem ofFloat_cases (x : Float) : (∃ n, ofFloat x = .int n) ∨ ofFloat x = .float x := by
  unfold ofFloat
  split
  · split
    · exact Or.inl ⟨_, rfl⟩
    · exact Or.inr rfl
  · exact Or.inr rfl

theorem equal_of_toInt? {x : Float} {n : Int64} (h : toInt? x = some n.toInt) :
    equal (ofInt n.toInt) x = true := by
  have hn := natAbs_toInt_le n
  exact equal_iff.mpr ⟨isNaN_ofInt hn, isNaN_of_isFinite (isFinite_of_toInt? h), (rank_of_toInt? hn h).symm⟩

theorem ofFloat_eq_iff {x y : Float} (hy : isNaN y = false) : ofFloat x = ofFloat y ↔ equal x y = true := by
  constructor
  · intro h
    rcases ofFloat_cases y with ⟨n, hk⟩ | hk
    · have hx := ofFloat_eq_int.mp (h.trans hk)
      have hy := ofFloat_eq_int.mp hk
      have hn := natAbs_toInt_le n
      refine equal_iff.mpr ⟨isNaN_of_isFinite (isFinite_of_toInt? hx), isNaN_of_isFinite (isFinite_of_toInt? hy), ?_⟩
      rw [rank_of_toInt? hn hx, rank_of_toInt? hn hy]
    · rcases ofFloat_cases x with ⟨n, hx⟩ | hx
      · rw [hk, hx] at h
        cases h
      · rw [hk, hx] at h
        cases h
        exact equal_iff.mpr ⟨hy, hy, rfl⟩
  · intro h
    obtain ⟨-, -, hr⟩ := equal_iff.mp h
    by_cases hz : magnitude x = 0
    · have hz' : magnitude y = 0 := magnitude_eq_of_rank_eq hr ▸ hz
      unfold ofFloat
      rw [toInt?_of_magnitude_zero hz, toInt?_of_magnitude_zero hz']
      rfl
    · rw [eq_of_rank_eq hr hz]

/-! ## Keys of values -/

theorem int_eq_ofFloat_iff {n : Int64} {x : Float} :
    Key.int n = ofFloat x ↔ equal (ofInt n.toInt) x = true ∧ (toInt? x == some n.toInt) = true := by
  rw [beq_iff_eq, eq_comm, ofFloat_eq_int]
  constructor
  · intro h
    exact ⟨equal_of_toInt? h, h⟩
  · intro h
    exact h.2

theorem ofValue?_eq_some_iff {u v : Value} {k : Key} (hk : ofValue? v = some k) (hv : v.isNaN = false) :
    ofValue? u = some k ↔ (u == v) = true ∧ u.roundsTo v = false := by
  rw [← hk]
  change _ ↔ Value.same u v = true ∧ _
  cases v with
  | text t =>
    cases u with
    | text s => simp [ofValue?, Value.same, Value.roundsTo]
    | float x => rcases ofFloat_cases x with ⟨n, h⟩ | h <;> simp [ofValue?, h, Value.same, Value.sameNumber, Value.number?]
    | _ => simp [ofValue?, Value.same, Value.sameNumber, Value.number?]
  | bool b =>
    cases u with
    | bool a => simp [ofValue?, Value.same, Value.roundsTo]
    | float x => rcases ofFloat_cases x with ⟨n, h⟩ | h <;> simp [ofValue?, h, Value.same, Value.sameNumber, Value.number?]
    | _ => simp [ofValue?, Value.same, Value.sameNumber, Value.number?]
  | int n =>
    cases u with
    | int m => simp [ofValue?, Value.same, Value.roundsTo]
    | float x =>
      have h := int_eq_ofFloat_iff (n := n) (x := x)
      rw [equal_comm, eq_comm] at h
      simp only [ofValue?, Option.some.injEq, h, Value.same, Value.sameNumber, Value.number?, Value.roundsTo]
      cases equal x (ofInt n.toInt) <;> simp
    | _ => simp [ofValue?, Value.same, Value.sameNumber, Value.number?]
  | float y =>
    cases u with
    | int m =>
      simp only [ofValue?, Option.some.injEq, int_eq_ofFloat_iff, Value.same, Value.sameNumber, Value.number?,
        Value.roundsTo]
      cases equal (ofInt m.toInt) y <;> simp
    | float x =>
      simp only [ofValue?, Option.some.injEq, ofFloat_eq_iff hv, Value.same, Value.sameNumber, Value.number?,
        Value.roundsTo, and_true]
    | _ => rcases ofFloat_cases y with ⟨n, h⟩ | h <;> simp [ofValue?, h, Value.same, Value.sameNumber, Value.number?]
  | list _ => cases hk
  | object _ => cases hk

theorem ofValue?_eq_text {u : Value} {s : String} : ofValue? u = some (.text s) ↔ u = .text s := by
  cases u with
  | float x => rcases ofFloat_cases x with ⟨n, h⟩ | h <;> simp [ofValue?, h]
  | _ => simp [ofValue?]

end Index.Key

/-! ## Exact values -/

namespace Value

open Number

def isExact : Value → Bool
  | .int n => n.toInt.natAbs ≤ 2 ^ 53
  | .float x => magnitude x < magnitude (ofInt (2 ^ 53))
  | _ => true

theorem roundsTo_eq_false {u v : Value} (hv : v.isExact = true) : u.roundsTo v = false := by
  cases u with
  | int m =>
    cases v with
    | float x =>
      cases he : equal (ofInt m.toInt) x with
      | false => simp [roundsTo, he]
      | true =>
        obtain ⟨-, -, hr⟩ := equal_iff.mp he
        have hm := natAbs_toInt_le m
        have hlt : magnitude x < magnitude (ofInt (2 ^ 53)) := by simpa [isExact] using hv
        rw [← magnitude_eq_of_rank_eq hr, magnitude_ofInt hm, magnitude_ofInt (by decide)] at hlt
        have hsmall : m.toInt.natAbs ≤ 2 ^ 53 := by
          rcases Nat.lt_or_ge (2 ^ 53) m.toInt.natAbs with h | h
          · exact absurd (natMagnitude_mono (Nat.le_of_lt h)) (Nat.not_le_of_lt hlt)
          · exact h
        have hx : toInt? x = some m.toInt := (toInt?_eq_of_rank_eq hr).symm.trans (toInt?_ofInt hsmall)
        simp [roundsTo, hx]
    | _ => rfl
  | float x =>
    cases v with
    | int n =>
      cases he : equal x (ofInt n.toInt) with
      | false => simp [roundsTo, he]
      | true =>
        obtain ⟨-, -, hr⟩ := equal_iff.mp he
        have hsmall : n.toInt.natAbs ≤ 2 ^ 53 := by simpa [isExact] using hv
        have hx : toInt? x = some n.toInt := (toInt?_eq_of_rank_eq hr).trans (toInt?_ofInt hsmall)
        simp [roundsTo, hx]
    | _ => rfl
  | _ => cases v <;> rfl

end Value

end TriGraph
