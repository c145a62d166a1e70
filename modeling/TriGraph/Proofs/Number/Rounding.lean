import Mathlib.Algebra.Group.Int.Defs
import Mathlib.Algebra.Group.Nat.Defs
import TriGraph.Number.Order

/-!
# Integers as floats

The magnitude of the float nearest to an integer is one sum: the place of the leading bit as exponent, and the 53
leading bits, rounded half to even, as significand. One that is rounded up to the next power of two carries into the
exponent, so that no case has to be made of it.
-/

namespace TriGraph.Number

open Float.Model (UnpackedFloat)
open Float.Model.UnpackedFloat

/-! ## Rounding half to even -/

def halfEven (n k : Nat) : Nat :=
  let q := n / 2 ^ k
  let r := n % 2 ^ k
  if 2 * r < 2 ^ k then q else if 2 * r = 2 ^ k then q + q % 2 else q + 1

theorem halfEven_zero (n : Nat) : halfEven n 0 = n := by
  simp [halfEven, Nat.mod_one]

theorem le_halfEven (n k : Nat) : n / 2 ^ k ≤ halfEven n k := by
  unfold halfEven; dsimp only
  split
  · omega
  · split <;> omega

theorem halfEven_le (n k : Nat) : halfEven n k ≤ n / 2 ^ k + 1 := by
  unfold halfEven; dsimp only
  split
  · omega
  · split <;> omega

theorem halfEven_mono {m n : Nat} (h : m ≤ n) (k : Nat) : halfEven m k ≤ halfEven n k := by
  rcases Nat.lt_or_ge (m / 2 ^ k) (n / 2 ^ k) with hq | hq
  · exact Nat.le_trans (halfEven_le m k) (Nat.le_trans hq (le_halfEven n k))
  · have hq : m / 2 ^ k = n / 2 ^ k := Nat.le_antisymm (Nat.div_le_div_right h) hq
    have hm := Nat.div_add_mod m (2 ^ k)
    have hn := Nat.div_add_mod n (2 ^ k)
    rw [hq] at hm
    have hr : m % 2 ^ k ≤ n % 2 ^ k := by omega
    unfold halfEven; dsimp only
    rw [hq]
    repeat' split
    all_goals omega

theorem halfEven_mul (q k : Nat) : halfEven (q * 2 ^ k) k = q := by
  have hp : 0 < 2 ^ k := Nat.two_pow_pos k
  unfold halfEven; dsimp only
  rw [Nat.mul_div_cancel _ hp, Nat.mul_mod_left, if_pos (by omega)]

/-- What the two residual bits say after `k` bits of `n` have been dropped. -/
structure Dropped (n k : Nat) (em : ExtendedMantissa) : Prop where
  mantissa : em.mantissa = n / 2 ^ k
  round : em.roundBit = decide (2 ^ k ≤ 2 * (n % 2 ^ k))
  sticky : em.stickyBit = decide (n % 2 ^ k ≠ 0 ∧ 2 * (n % 2 ^ k) ≠ 2 ^ k)

theorem Dropped.zero (n : Nat) : Dropped n 0 ⟨n, false, false⟩ := by
  constructor <;> simp [Nat.mod_one]

theorem Dropped.succ {n k : Nat} {em : ExtendedMantissa} (h : Dropped n k em) :
    Dropped n (k + 1) em.shiftRightOne := by
  have hr : n % 2 ^ k < 2 ^ k := Nat.mod_lt _ (Nat.two_pow_pos k)
  have hp : 2 ^ (k + 1) = 2 ^ k * 2 := rfl
  have hs : n % 2 ^ (k + 1) = n % 2 ^ k + 2 ^ k * (n / 2 ^ k % 2) := by rw [hp, Nat.mod_mul]
  have hb : n / 2 ^ k % 2 = 0 ∨ n / 2 ^ k % 2 = 1 := Nat.mod_two_eq_zero_or_one _
  obtain ⟨hm, hround, hsticky⟩ := h
  refine ⟨?_, ?_, ?_⟩
  · simp only [ExtendedMantissa.shiftRightOne, hm]
    rw [Nat.div_div_eq_div_mul, hp]
  · rw [hs, hp]
    simp only [ExtendedMantissa.shiftRightOne, hm]
    rcases hb with hb | hb <;> rw [hb] <;> simp <;> omega
  · rw [hs, hp]
    simp only [ExtendedMantissa.shiftRightOne, hround, hsticky]
    rw [← Bool.decide_or, decide_eq_decide]
    rcases hb with hb | hb <;> rw [hb] <;> omega

theorem Dropped.shift (n k : Nat) : Dropped n k ((⟨n, false, false⟩ : ExtendedMantissa) >>> k) := by
  change Dropped n k (k.repeat ExtendedMantissa.shiftRightOne ⟨n, false, false⟩)
  induction k with
  | zero => exact Dropped.zero n
  | succ k ih => exact ih.succ

theorem Dropped.rounded {n k : Nat} {em : ExtendedMantissa} (h : Dropped n k em) :
    em.roundedMantissa = halfEven n k := by
  obtain ⟨m, round, sticky⟩ := em
  obtain ⟨hm, hround, hsticky⟩ := h
  dsimp only at hm hround hsticky
  subst hm
  have hr : n % 2 ^ k < 2 ^ k := Nat.mod_lt _ (Nat.two_pow_pos k)
  unfold halfEven; dsimp only
  cases round <;> cases sticky <;>
    simp only [ExtendedMantissa.roundedMantissa, ExtendedMantissa.accuracy, Accuracy.roundToNearestEven,
      eq_comm (a := false), eq_comm (a := true), decide_eq_true_eq, decide_eq_false_iff_not] at hround hsticky ⊢
  · rw [if_pos (by omega)]
  · rw [if_pos (by omega)]
  · rw [if_neg (by omega), if_pos (by omega)]
  · rw [if_neg (by omega), if_neg (by omega)]

/-! ## The significand of an integer -/

def significand (n : Nat) : Nat :=
  halfEven (n * 2 ^ (52 - n.log2)) (n.log2 - 52)

theorem leading_bounds {n : Nat} (h : n ≠ 0) :
    2 ^ 52 ≤ n * 2 ^ (52 - n.log2) / 2 ^ (n.log2 - 52) ∧
      n * 2 ^ (52 - n.log2) / 2 ^ (n.log2 - 52) < 2 ^ 53 := by
  have hlo : 2 ^ n.log2 ≤ n := Nat.log2_self_le h
  have hhi : n < 2 ^ (n.log2 + 1) := Nat.lt_log2_self
  rw [Nat.le_div_iff_mul_le (Nat.two_pow_pos _), Nat.div_lt_iff_lt_mul (Nat.two_pow_pos _)]
  rcases Nat.le_total n.log2 52 with hl | hl
  · rw [Nat.sub_eq_zero_of_le hl, Nat.pow_zero, Nat.mul_one, Nat.mul_one]
    have hp : 2 ^ n.log2 * 2 ^ (52 - n.log2) = 2 ^ 52 := by rw [← Nat.pow_add]; congr 1; omega
    have hlo := Nat.mul_le_mul_right (2 ^ (52 - n.log2)) hlo
    have hhi := Nat.mul_lt_mul_of_pos_right hhi (Nat.two_pow_pos (52 - n.log2))
    rw [hp] at hlo
    rw [Nat.pow_succ, Nat.mul_right_comm, hp] at hhi
    exact ⟨hlo, hhi⟩
  · rw [Nat.sub_eq_zero_of_le hl, Nat.pow_zero, Nat.mul_one, ← Nat.pow_add, ← Nat.pow_add]
    rw [show 52 + (n.log2 - 52) = n.log2 by omega, show 53 + (n.log2 - 52) = n.log2 + 1 by omega]
    exact ⟨hlo, hhi⟩

theorem le_significand {n : Nat} (h : n ≠ 0) : 2 ^ 52 ≤ significand n :=
  Nat.le_trans (leading_bounds h).1 (le_halfEven _ _)

theorem significand_le {n : Nat} (h : n ≠ 0) : significand n ≤ 2 ^ 53 :=
  Nat.le_trans (halfEven_le _ _) (leading_bounds h).2

def natMagnitude (n : Nat) : Nat :=
  if n = 0 then 0 else (n.log2 + 1022) * 2 ^ 52 + significand n

theorem natMagnitude_mono {m n : Nat} (h : m ≤ n) : natMagnitude m ≤ natMagnitude n := by
  unfold natMagnitude
  by_cases hm : m = 0
  · simp [hm]
  have hn : n ≠ 0 := by omega
  rw [if_neg hm, if_neg hn]
  have hl : m.log2 ≤ n.log2 := (Nat.le_log2 hn).mpr (Nat.le_trans (Nat.log2_self_le hm) h)
  rcases Nat.lt_or_ge m.log2 n.log2 with hl | hl'
  · have := significand_le hm
    have := le_significand hn
    omega
  · have hl : m.log2 = n.log2 := Nat.le_antisymm hl hl'
    unfold significand
    rw [hl]
    exact Nat.add_le_add_left (halfEven_mono (Nat.mul_le_mul_right _ h) _) _

/-! ## The model's rounding -/

open Float.Model (Format totalExponent) in
theorem targetExponent_eq {m : Nat} {e : Int} (h : -1022 ≤ (m.log2 : Int) + e) :
    Format.binary64.targetExponent (totalExponent m e) = m.log2 + e - 52 := by
  change max ((m.log2 : Int) + 1 + e - (53 : Nat)) (-1074) = _
  omega

theorem shift_eq {m : Nat} {e : Int} (h : -1022 ≤ (m.log2 : Int) + e) :
    shiftToTargetExponent .binary64 m e .exact =
      ((⟨m, false, false⟩ : ExtendedMantissa) >>> (m.log2 - 52), e + ((m.log2 - 52 : Nat) : Int)) := by
  have hs : ((m.log2 : Int) + e - 52 - e).toNat = m.log2 - 52 := by omega
  simp only [shiftToTargetExponent, shiftToExponent, targetExponent_eq h, hs,
    ExtendedMantissa.ofMantissaAndAccuracy]

theorem log2_eq {m k : Nat} (h : 2 ^ k ≤ m) (h' : m < 2 ^ (k + 1)) : m.log2 = k := by
  have hm : m ≠ 0 := by have := Nat.two_pow_pos k; omega
  exact (Nat.log2_eq_iff hm).mpr ⟨h, h'⟩

theorem roundWithAccuracy_of_shifts (s : Sign) {m q r : Nat} {e e' f : Int} {em em' : ExtendedMantissa}
    (h : shiftToTargetExponent .binary64 m e .exact = (em, e')) (hq : em.roundedMantissa = q)
    (h' : shiftToTargetExponent .binary64 q e' .exact = (em', f)) (hr : em'.mantissa = r) (hpos : 0 < r) :
    roundWithAccuracy .binary64 s m e .exact = .finite s r f hpos := by
  subst hq hr
  have hz : em'.mantissa ≠ 0 := by omega
  unfold roundWithAccuracy
  rw [h]
  dsimp only
  rw [h']
  exact dif_neg hz

theorem roundWithAccuracy_eq (s : Sign) {m : Nat} {e : Int} (h : -1022 ≤ (m.log2 : Int) + e)
    (hlo : 2 ^ 52 ≤ halfEven m (m.log2 - 52)) (hhi : halfEven m (m.log2 - 52) ≤ 2 ^ 53) :
    ∃ (r : Nat) (f : Int) (hr : 0 < r), roundWithAccuracy .binary64 s m e .exact = .finite s r f hr ∧
      2 ^ 52 ≤ r ∧ r < 2 ^ 53 ∧ e + (m.log2 - 52 : Nat) ≤ f ∧ f ≤ e + (m.log2 - 52 : Nat) + 1 ∧
      f * 2 ^ 52 + r = (e + (m.log2 - 52 : Nat)) * 2 ^ 52 + halfEven m (m.log2 - 52) := by
  have hround : ((⟨m, false, false⟩ : ExtendedMantissa) >>> (m.log2 - 52)).roundedMantissa =
      halfEven m (m.log2 - 52) := (Dropped.shift m _).rounded
  have hshift := shift_eq h
  generalize halfEven m (m.log2 - 52) = q at hround hlo hhi ⊢
  generalize hk : (m.log2 - 52 : Nat) = k at hround hshift ⊢
  rcases Nat.lt_or_eq_of_le hhi with hlt | rfl
  · have hl : q.log2 = 52 := log2_eq hlo hlt
    have hagain := shift_eq (m := q) (e := e + k) (by omega)
    rw [hl, Nat.sub_self, Int.natCast_zero, Int.add_zero] at hagain
    have hpos : 0 < q := by omega
    exact ⟨q, e + k, hpos, roundWithAccuracy_of_shifts s hshift hround hagain rfl hpos, hlo, hlt,
      by omega, by omega, rfl⟩
  · have hl : (2 ^ 53 : Nat).log2 = 53 := log2_eq (by decide) (by decide)
    have hagain := shift_eq (m := 2 ^ 53) (e := e + k) (by omega)
    rw [hl, show 53 - 52 = 1 from rfl] at hagain
    exact ⟨2 ^ 52, e + k + 1, by decide, roundWithAccuracy_of_shifts s hshift hround hagain rfl (by decide),
      by decide, by decide, by omega, by omega, by omega⟩

/-! ## The bits of a float -/

theorem toNat_packComponents (s : Sign) (e : BitVec 11) (m : BitVec 52) :
    (packComponents .binary64 s e m).toNat = s.toBitVec.toNat * 2 ^ 63 + e.toNat * 2 ^ 52 + m.toNat := by
  have he : e.toNat < 2 ^ 11 := e.isLt
  have hm : m.toNat < 2 ^ 52 := m.isLt
  simp only [packComponents]
  rw [BitVec.toNat_append, BitVec.toNat_append, ← Nat.shiftLeft_add_eq_or_of_lt he,
    ← Nat.shiftLeft_add_eq_or_of_lt hm, Nat.shiftLeft_eq, Nat.shiftLeft_eq]
  omega

theorem toNat_pack (s : Sign) {m : Nat} {e : Int} (hm : 0 < m) (hlo : 2 ^ 52 ≤ m) (hhi : m < 2 ^ 53)
    (he : -1074 ≤ e) (he' : e ≤ 971) :
    (pack .binary64 (.finite s m e hm)).toNat =
      s.toBitVec.toNat * 2 ^ 63 + ((e + 1074).toNat * 2 ^ 52 + m) := by
  have hb : (e + ((2 ^ (11 - 1) - 1 : Nat) : Int) + ((52 : Nat) : Int)).toNat = (e + 1074).toNat + 1 := by
    omega
  have hfit : ¬ 2 ^ 11 ≤ (e + ((2 ^ (11 - 1) - 1 : Nat) : Int) + ((52 : Nat) : Int)).toNat + 1 := by omega
  have hl : m.log2 + 1 = 53 := by rw [log2_eq hlo hhi]
  have hp : pack .binary64 (.finite s m e hm) =
      packComponents .binary64 s (BitVec.ofNat _ ((e + 1074).toNat + 1)) (BitVec.ofNat _ m) := by
    refine (if_neg hfit).trans ((if_pos hl).trans ?_)
    rw [← hb]
    rfl
  rw [hp, toNat_packComponents, BitVec.toNat_ofNat, BitVec.toNat_ofNat]
  omega

/-! ## Integers of 64 bits, with or without a sign -/

theorem log2_mul_two_pow {n : Nat} (h : n ≠ 0) (k : Nat) : (n * 2 ^ k).log2 = n.log2 + k := by
  apply log2_eq
  · rw [Nat.pow_add]
    exact Nat.mul_le_mul_right _ (Nat.log2_self_le h)
  · rw [Nat.add_right_comm, Nat.pow_add]
    exact Nat.mul_lt_mul_of_pos_right Nat.lt_log2_self (Nat.two_pow_pos k)

theorem toNat_pack_round (s : Sign) {n : Nat} (h : n ≠ 0) (hl : n.log2 ≤ 1022) :
    (pack .binary64 (UnpackedFloat.round .binary64 s n 0)).toNat = s.toBitVec.toNat * 2 ^ 63 + natMagnitude n := by
  have ht := targetExponent_eq (m := n) (e := 0) (by omega)
  have hd : (0 - ((n.log2 : Int) + 0 - 52)).toNat = 52 - n.log2 := by omega
  have hm : (n * 2 ^ (52 - n.log2)).log2 - 52 = n.log2 - 52 := by rw [log2_mul_two_pow h]; omega
  obtain ⟨r, f, hr, hround, hlo, hhi, hf, hf', hsum⟩ := roundWithAccuracy_eq s
    (m := n * 2 ^ (52 - n.log2)) (e := 0 - (52 - n.log2 : Nat)) (by rw [log2_mul_two_pow h]; omega)
    (by rw [hm]; exact le_significand h) (by rw [hm]; exact significand_le h)
  rw [hm] at hf hf' hsum
  change _ = _ + (significand n : Int) at hsum
  simp only [UnpackedFloat.round, ht, decreaseExponent, hd, Nat.shiftLeft_eq]
  rw [hround, toNat_pack s hr hlo hhi (by omega) (by omega), natMagnitude, if_neg h]
  omega

theorem toNat_toBits_ofInt {n : Int} (h : n.natAbs ≤ 2 ^ 64) :
    (ofInt n).toBits.toNat = (if n < 0 then 2 ^ 63 else 0) + natMagnitude n.natAbs := by
  have hl : n.natAbs.log2 ≤ 1022 := by
    by_cases h0 : n.natAbs = 0
    · simp [h0]
    · have := (Nat.log2_lt h0).mpr (show n.natAbs < 2 ^ 65 by omega)
      omega
  change (pack .binary64 (UnpackedFloat.normalize .binary64 n 0 .positive)).toNat = _
  unfold UnpackedFloat.normalize
  rcases Int.lt_trichotomy n 0 with hn | rfl | hn
  · have ha : (-n).toNat = n.natAbs := by omega
    rw [Int.compare_eq_lt.mpr hn, if_pos hn]
    dsimp only
    rw [ha, toNat_pack_round _ (by omega) hl]
    simp [Sign.toBitVec]
  · rfl
  · have ha : n.toNat = n.natAbs := by omega
    rw [Int.compare_eq_gt.mpr hn, if_neg (by omega)]
    dsimp only
    rw [ha, toNat_pack_round _ (by omega) hl]
    simp [Sign.toBitVec]

theorem natMagnitude_le {n : Nat} (h : n ≤ 2 ^ 64) : natMagnitude n ≤ 1087 * 2 ^ 52 :=
  natMagnitude_mono h

theorem magnitude_ofInt {n : Int} (h : n.natAbs ≤ 2 ^ 64) : magnitude (ofInt n) = natMagnitude n.natAbs := by
  have := natMagnitude_le h
  unfold magnitude signWeight
  rw [toNat_toBits_ofInt h]
  split <;> omega

theorem isNegative_ofInt {n : Int} (h : n.natAbs ≤ 2 ^ 64) : isNegative (ofInt n) = decide (n < 0) := by
  have := natMagnitude_le h
  unfold isNegative signWeight
  rw [toNat_toBits_ofInt h]
  by_cases hn : n < 0
  · simp [hn]
  · simp only [hn, if_false, decide_false, decide_eq_false_iff_not]
    omega

theorem isFinite_ofInt {n : Int} (h : n.natAbs ≤ 2 ^ 64) : isFinite (ofInt n) = true := by
  have := natMagnitude_le h
  simp only [isFinite, magnitude_ofInt h, infiniteMagnitude, leastNormal, decide_eq_true_eq]
  omega

end TriGraph.Number
