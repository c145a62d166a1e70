import TriGraph.Proofs.Number.Unpacked

/-!
# Places

A finite float is a multiple of the least positive one, and its place is the factor. What an operation yields denotes
a place as well, and is put together as the float of that place unless it lies beyond all finite floats.
-/

namespace TriGraph.Number

open Float.Model (UnpackedFloat)
open Float.Model.UnpackedFloat

def ulps (x : Float) : Nat :=
  (parts x).1 * 2 ^ ((parts x).2 + 1074).toNat

def place (x : Float) : Int :=
  withSign x (ulps x)

/-! ## The order of places -/

theorem ulps_eq (x : Float) :
    (magnitude x < 2 ^ 52 ∧ ulps x = magnitude x) ∨
      ∃ m k : Nat, 2 ^ 52 ≤ m ∧ m < 2 ^ 53 ∧ magnitude x = k * 2 ^ 52 + m ∧ ulps x = m * 2 ^ k := by
  unfold ulps
  rcases parts_eq x with ⟨hm, hp⟩ | ⟨m, k, hlo, hhi, hm, hp⟩
  · rw [hp]
    exact Or.inl ⟨hm, Nat.mul_one _⟩
  · rw [hp]
    refine Or.inr ⟨m, k, hlo, hhi, hm, ?_⟩
    rw [Int.sub_add_cancel, Int.toNat_natCast]

theorem le_mul_two_pow (m k : Nat) : m ≤ m * 2 ^ k :=
  Nat.le_mul_of_pos_right m (Nat.two_pow_pos k)

theorem ulps_lt {x y : Float} (h : magnitude x < magnitude y) : ulps x < ulps y := by
  rcases ulps_eq x with ⟨hx, hux⟩ | ⟨m, k, hlo, hhi, hx, hux⟩
  · rcases ulps_eq y with ⟨-, huy⟩ | ⟨n, l, hlo, -, -, huy⟩
    · omega
    · have := le_mul_two_pow n l
      omega
  · rcases ulps_eq y with ⟨hy, -⟩ | ⟨n, l, hlo', hhi', hy, huy⟩
    · omega
    · rw [hux, huy]
      rcases Nat.lt_or_ge k l with hkl | hkl
      · calc
          m * 2 ^ k < 2 ^ 53 * 2 ^ k := Nat.mul_lt_mul_of_pos_right hhi (Nat.two_pow_pos k)
          _ = 2 ^ 52 * 2 ^ (k + 1) := by rw [Nat.pow_succ']; omega
          _ ≤ 2 ^ 52 * 2 ^ l := Nat.mul_le_mul_left _ (Nat.pow_le_pow_right (by decide) hkl)
          _ ≤ n * 2 ^ l := Nat.mul_le_mul_right _ hlo'
      · obtain rfl : k = l := by omega
        exact Nat.mul_lt_mul_of_pos_right (by omega) (Nat.two_pow_pos k)

theorem ulps_congr {x y : Float} (h : magnitude x = magnitude y) : ulps x = ulps y := by
  unfold ulps parts
  rw [h]

theorem ulps_le_iff {x y : Float} : ulps x ≤ ulps y ↔ magnitude x ≤ magnitude y := by
  rcases Nat.lt_trichotomy (magnitude x) (magnitude y) with h | h | h
  · have := ulps_lt h
    omega
  · have := ulps_congr h
    omega
  · have := ulps_lt h
    omega

theorem ulps_of_small {x : Float} (h : magnitude x < 2 ^ 52 ∨ ulps x < 2 ^ 52) : ulps x = magnitude x := by
  rcases ulps_eq x with ⟨-, hu⟩ | ⟨m, k, hlo, -, hm, hu⟩
  · exact hu
  · have := le_mul_two_pow m k
    omega

theorem place_le_iff {x y : Float} : place x ≤ place y ↔ rank x ≤ rank y := by
  have hxy := ulps_le_iff (x := x) (y := y)
  have hyx := ulps_le_iff (x := y) (y := x)
  have hx := @ulps_of_small x
  have hy := @ulps_of_small y
  unfold place rank withSign
  split <;> split <;> omega

theorem place_eq_iff {x y : Float} : place x = place y ↔ rank x = rank y := by
  rw [Int.le_antisymm_iff, Int.le_antisymm_iff, place_le_iff, place_le_iff]

theorem place_eq_zero_iff {x : Float} : place x = 0 ↔ isZero x = true := by
  have hx := @ulps_of_small x
  unfold place withSign isZero
  rw [decide_eq_true_iff]
  split <;> omega

/-! ## The bound -/

def slackBits : Nat :=
  2044

/-- Half of the last place of the greatest finite floats. -/
def slack : Nat :=
  2 ^ slackBits

def beyond : Nat :=
  2 ^ 54 * slack

theorem two_le_slack : 2 ≤ slack := by
  have h : 2 ^ 1 ≤ 2 ^ slackBits := Nat.pow_le_pow_right (by decide) (by decide)
  exact h

theorem beyond_eq : beyond = 2 ^ (slackBits + 54) := by
  unfold beyond slack
  generalize slackBits = k
  rw [Nat.pow_add, Nat.mul_comm]

theorem two_pow_le_slack {k : Nat} (h : k ≤ slackBits + 1) : 2 ^ k ≤ 2 * slack := by
  unfold slack
  generalize slackBits = l at h ⊢
  rw [← Nat.pow_succ']
  exact Nat.pow_le_pow_right (by decide) h

theorem log2_lt_of_lt_beyond {n : Nat} (hn : n < beyond) : n.log2 < slackBits + 54 := by
  by_cases h0 : n = 0
  · subst h0
    decide
  · exact (Nat.log2_lt h0).mpr (Nat.lt_of_lt_of_eq hn beyond_eq)

theorem natAbs_place_le {x : Float} (hx : isFinite x = true) : (place x).natAbs + 2 * slack ≤ beyond := by
  have hle := parts_le hx
  have hlt := (canonical_parts x).lt
  have hpow : 2 ^ ((parts x).2 + 1074).toNat ≤ 2 * slack := by
    apply two_pow_le_slack
    unfold slackBits
    omega
  have hmul : ulps x ≤ (2 ^ 53 - 1) * (2 * slack) := Nat.mul_le_mul (by omega) hpow
  rw [place, natAbs_withSign]
  unfold beyond
  omega

/-! ## What an operation yields -/

inductive Denotes : UnpackedFloat → Int → Prop where
  | zero (s : Sign) : Denotes (.zero s) 0
  | finite (s : Sign) {m : Nat} {e : Int} (hm : 0 < m) (hc : Canonical m e) :
      Denotes (.finite s m e hm) (s.apply (m * 2 ^ (e + 1074).toNat : Nat))

theorem natAbs_apply (s : Sign) (n : Nat) : (s.apply n).natAbs = n := by
  cases s with
  | negative => exact Int.natAbs_neg n
  | positive => rfl

theorem denotes_unpack {x : Float} (hx : isFinite x = true) : Denotes x.toModel.unpack (place x) := by
  have h := unpacks x
  generalize x.toModel.unpack = u at h
  cases h with
  | notANumber h =>
    rw [isNaN_of_isFinite hx] at h
    cases h
  | infinity h =>
    unfold isFinite at hx
    rw [h] at hx
    cases hx
  | zero h =>
    rw [place_eq_zero_iff.mpr (decide_eq_true h)]
    exact .zero _
  | finite _ hp hm =>
    have hc := canonical_parts x
    have hplace : place x = (signOf x).apply ((parts x).1 * 2 ^ ((parts x).2 + 1074).toNat : Nat) := by
      unfold place withSign signOf ulps
      split <;> rfl
    rw [hplace]
    rw [hp] at hc ⊢
    exact .finite _ hm hc

theorem exponent_le_iff {m : Nat} {e : Int} (hc : Canonical m e) : e ≤ 971 ↔ m * 2 ^ (e + 1074).toNat < beyond := by
  obtain ⟨hlt, hle, hfull⟩ := hc
  constructor
  · intro he
    have hpow : 2 ^ (e + 1074).toNat ≤ 2 * slack := by
      apply two_pow_le_slack
      unfold slackBits
      omega
    have hmul : m * 2 ^ (e + 1074).toNat ≤ (2 ^ 53 - 1) * (2 * slack) := Nat.mul_le_mul (by omega) hpow
    have := two_le_slack
    unfold beyond
    omega
  · intro h
    rcases hfull with hfull | rfl
    · have hpow : 2 ^ (52 + (e + 1074).toNat) < 2 ^ (slackBits + 54) := by
        rw [Nat.pow_add, ← beyond_eq]
        exact Nat.lt_of_le_of_lt (Nat.mul_le_mul_right _ hfull) h
      have := (Nat.pow_lt_pow_iff_right (by decide)).mp hpow
      unfold slackBits at this
      omega
    · decide

theorem Denotes.packed {u : UnpackedFloat} {a : Int} (h : Denotes u a) (ha : a.natAbs < beyond) :
    isFinite (packed u) = true ∧ place (packed u) = a := by
  cases h with
  | zero s =>
    have hz : isZero (Number.packed (.zero s)) = true := by cases s <;> rfl
    exact ⟨by cases s <;> rfl, place_eq_zero_iff.mpr hz⟩
  | finite s hm hc =>
    rw [natAbs_apply, ← exponent_le_iff hc] at ha
    refine ⟨isFinite_packed hc ha, ?_⟩
    unfold place withSign ulps
    rw [isNegative_packed hc ha, parts_packed hc ha]
    cases s <;> rfl

theorem Denotes.isZero_packed_iff {u : UnpackedFloat} {a : Int} (h : Denotes u a) :
    isZero (Number.packed u) = true ↔ a = 0 := by
  by_cases ha : a.natAbs < beyond
  · rw [← place_eq_zero_iff, (h.packed ha).2]
  · have hne : a ≠ 0 := by
      rintro rfl
      exact ha (Nat.lt_of_lt_of_le (Nat.zero_lt_of_lt two_le_slack) (Nat.le_mul_of_pos_left _ (by decide)))
    cases h with
    | zero s => exact absurd rfl hne
    | @finite s m e hm hc =>
      rw [natAbs_apply, ← exponent_le_iff hc] at ha
      have hp := pack_finite s m e hm
      rw [if_pos (by omega)] at hp
      refine iff_of_false ?_ hne
      unfold isZero
      rw [magnitude_packed hp]
      decide

end TriGraph.Number
