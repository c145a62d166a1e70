import TriGraph.Proofs.Number.Places

/-!
# Sums, differences and halves

The sum of two finite floats has the place nearest to the sum of their places, unless that is beyond all finite
floats; so has the difference, and half a float has the nearest place to half of its own.
-/

namespace TriGraph.Number

open Float.Model (UnpackedFloat)
open Float.Model.UnpackedFloat

/-! ## Rounding of places -/

theorem halfEven_error (n k : Nat) :
    2 * (halfEven n k * 2 ^ k) ≤ 2 * n + 2 ^ k ∧ 2 * n ≤ 2 * (halfEven n k * 2 ^ k) + 2 ^ k := by
  have hd := Nat.div_add_mod' n (2 ^ k)
  have hr := Nat.mod_lt n (Nat.two_pow_pos k)
  unfold halfEven; dsimp only
  generalize n / 2 ^ k = q at hd ⊢
  generalize n % 2 ^ k = r at hd hr ⊢
  have hone : (q + 1) * 2 ^ k = q * 2 ^ k + 2 ^ k := Nat.succ_mul q _
  split
  · omega
  · split
    · rcases Nat.mod_two_eq_zero_or_one q with hq | hq
      · rw [hq, Nat.add_zero]
        omega
      · rw [hq]
        omega
    · omega

theorem halfEven_scale (n k j : Nat) : halfEven (n * 2 ^ j) (k + j) = halfEven n k := by
  have hj : 0 < 2 ^ j := Nat.two_pow_pos j
  have hr : 2 * (n % 2 ^ k * 2 ^ j) = 2 * (n % 2 ^ k) * 2 ^ j := (Nat.mul_assoc _ _ _).symm
  unfold halfEven; dsimp only
  rw [Nat.pow_add, Nat.mul_div_mul_right _ _ hj, Nat.mul_mod_mul_right, hr]
  simp only [Nat.mul_lt_mul_right hj, Nat.mul_left_inj (Nat.ne_of_gt hj)]

def shorten (n : Nat) : Nat :=
  halfEven n (n.log2 - 52) * 2 ^ (n.log2 - 52)

theorem shorten_of_short {m : Nat} (hm : m < 2 ^ 53) (j : Nat) : shorten (m * 2 ^ j) = m * 2 ^ j := by
  by_cases h0 : m = 0
  · subst h0
    simp [shorten, halfEven]
  · have hl : m.log2 < 53 := (Nat.log2_lt h0).mpr hm
    have hk : m * 2 ^ j = m * 2 ^ (j - ((m * 2 ^ j).log2 - 52)) * 2 ^ ((m * 2 ^ j).log2 - 52) := by
      rw [Nat.mul_assoc, ← Nat.pow_add, log2_mul_two_pow h0]
      congr 2
      omega
    unfold shorten
    generalize (m * 2 ^ j).log2 - 52 = k at hk ⊢
    rw [hk, halfEven_mul]

theorem shorten_zero : shorten 0 = 0 :=
  rfl

theorem shorten_pos {n : Nat} (hn : n ≠ 0) : 0 < shorten n := by
  have hpow := Nat.two_pow_pos (n.log2 - 52)
  have hle : 2 ^ (n.log2 - 52) ≤ n :=
    Nat.le_trans (Nat.pow_le_pow_right (by decide) (Nat.sub_le _ _)) (Nat.log2_self_le hn)
  exact Nat.mul_pos (Nat.lt_of_lt_of_le (Nat.div_pos hle hpow) (le_halfEven _ _)) hpow

theorem shorten_error {n : Nat} (hn : n < beyond) : shorten n ≤ n + slack ∧ n ≤ shorten n + slack := by
  obtain ⟨hup, hdown⟩ := halfEven_error n (n.log2 - 52)
  have hlog := log2_lt_of_lt_beyond hn
  have hk : 2 ^ (n.log2 - 52) ≤ 2 * slack := two_pow_le_slack (by omega)
  unfold shorten
  omega

theorem shorten_scale {n j : Nat} (hn : n ≠ 0) (h : 52 ≤ n.log2 + j) :
    shorten (n * 2 ^ j) = significand n * 2 ^ (n.log2 + j - 52) := by
  have hscale : n.log2 + j - 52 + (52 - n.log2) = n.log2 - 52 + j := by omega
  have hsame : halfEven (n * 2 ^ j) (n.log2 + j - 52) = significand n := by
    rw [← halfEven_scale _ _ (52 - n.log2), hscale, Nat.mul_right_comm, halfEven_scale]
    rfl
  unfold shorten
  rw [log2_mul_two_pow hn, hsame]

/-! ## Integers by absolute value -/

def keepSign (f : Nat → Nat) (a : Int) : Int :=
  if a < 0 then -(f a.natAbs : Int) else f a.natAbs

theorem keepSign_apply {f : Nat → Nat} (h : f 0 = 0) (s : Sign) (n : Nat) :
    keepSign f (s.apply n) = s.apply (f n) := by
  unfold keepSign
  rw [natAbs_apply]
  cases s with
  | negative =>
    change (if -(n : Int) < 0 then _ else _) = -(f n : Int)
    split
    · rfl
    · obtain rfl : n = 0 := by omega
      rw [h]
      rfl
  | positive =>
    change (if (n : Int) < 0 then _ else _) = (f n : Int)
    rw [if_neg (by omega)]

theorem natAbs_keepSign (f : Nat → Nat) (a : Int) : (keepSign f a).natAbs = f a.natAbs := by
  unfold keepSign
  split <;> omega

def near (a : Int) : Int :=
  keepSign shorten a

def halve (a : Int) : Int :=
  keepSign (halfEven · 1) a

theorem near_apply (s : Sign) (n : Nat) : near (s.apply n) = s.apply (shorten n) :=
  keepSign_apply shorten_zero s n

theorem halve_apply (s : Sign) (n : Nat) : halve (s.apply n) = s.apply (halfEven n 1) :=
  keepSign_apply rfl s n

theorem near_eq_zero_iff {a : Int} : near a = 0 ↔ a = 0 := by
  have habs : (near a).natAbs = shorten a.natAbs := natAbs_keepSign _ _
  have hpos := @shorten_pos a.natAbs
  have hzero := shorten_zero
  constructor
  · omega
  · rintro rfl
    rfl

theorem near_error {a : Int} (ha : a.natAbs < beyond) : (near a - a).natAbs ≤ slack := by
  have h := shorten_error ha
  unfold near keepSign
  split <;> omega

theorem halve_error (a : Int) : (2 * halve a - a).natAbs ≤ 1 := by
  have h := halfEven_error a.natAbs 1
  unfold halve keepSign
  dsimp only
  split <;> omega

theorem halve_eq_zero_iff {a : Int} : halve a = 0 ↔ a.natAbs ≤ 1 := by
  have h := halve_error a
  constructor
  · omega
  · intro ha
    obtain rfl | rfl | rfl : a = 0 ∨ a = 1 ∨ a = -1 := by omega
    all_goals rfl

/-! ## Rounding what is taken apart -/

theorem log2_lt_53 {m : Nat} (hm : m < 2 ^ 53) : m.log2 < 53 := by
  by_cases h0 : m = 0
  · subst h0
    decide
  · exact (Nat.log2_lt h0).mpr hm

theorem shift_of_least {m : Nat} (hm : m < 2 ^ 53) (acc : Accuracy) :
    shiftToTargetExponent .binary64 m (-1074) acc = (ExtendedMantissa.ofMantissaAndAccuracy m acc, -1074) := by
  have hl := log2_lt_53 hm
  have ht : Float.Model.Format.binary64.targetExponent (Float.Model.totalExponent m (-1074)) = -1074 := by
    change max ((m.log2 : Int) + 1 + -1074 - (53 : Nat)) (-1074) = -1074
    omega
  unfold shiftToTargetExponent
  rw [ht]
  rfl

theorem roundedMantissa_of (m : Nat) (acc : Accuracy) :
    (ExtendedMantissa.ofMantissaAndAccuracy m acc).roundedMantissa = acc.roundToNearestEven m := by
  rcases acc with _ | (_ | _ | _) <;> rfl

theorem roundToNearestEven_le (m : Nat) (acc : Accuracy) : acc.roundToNearestEven m ≤ m + 1 := by
  rcases acc with _ | (_ | _ | _) <;> simp only [Accuracy.roundToNearestEven] <;> omega

theorem denotes_subnormal (s : Sign) {q : Nat} (hq : q < 2 ^ 53) :
    Denotes (if h : q = 0 then .zero s else .finite s q (-1074) (Nat.pos_of_ne_zero h)) (s.apply q) := by
  by_cases hz : q = 0
  · subst hz
    cases s <;> exact .zero _
  · have h := Denotes.finite s (Nat.pos_of_ne_zero hz) ⟨hq, Int.le_refl _, Or.inr rfl⟩
    rw [show (-1074 + 1074 : Int).toNat = 0 from rfl, Nat.pow_zero, Nat.mul_one] at h
    rwa [dif_neg hz]

theorem denotes_least (s : Sign) {m : Nat} (hm : m < 2 ^ 52) (acc : Accuracy) :
    Denotes (roundWithAccuracy .binary64 s m (-1074) acc) (s.apply (acc.roundToNearestEven m : Nat)) := by
  have hq : acc.roundToNearestEven m < 2 ^ 53 := by
    have := roundToNearestEven_le m acc
    omega
  unfold roundWithAccuracy
  rw [shift_of_least (by omega)]
  dsimp only
  rw [roundedMantissa_of, shift_of_least hq]
  exact denotes_subnormal s hq

section
variable (s : Sign) {m : Nat} {e : Int} (hm : m ≠ 0) (he : -1074 ≤ e)
include hm he

theorem denotes_round_low (hlow : (m.log2 : Int) + e < -1022) :
    Denotes (UnpackedFloat.round .binary64 s m e) (s.apply (shorten (m * 2 ^ (e + 1074).toNat) : Nat)) := by
  have ht : Float.Model.Format.binary64.targetExponent (Float.Model.totalExponent m e) = -1074 := by
    change max ((m.log2 : Int) + 1 + e - (53 : Nat)) (-1074) = -1074
    omega
  have hl : (m * 2 ^ (e + 1074).toNat).log2 < 52 := by
    rw [log2_mul_two_pow hm]
    omega
  have hn : shorten (m * 2 ^ (e + 1074).toNat) = m * 2 ^ (e + 1074).toNat := by
    unfold shorten
    rw [Nat.sub_eq_zero_of_le (Nat.le_of_lt hl), halfEven_zero, Nat.pow_zero, Nat.mul_one]
  have hlt : m * 2 ^ (e + 1074).toNat < 2 ^ 52 :=
    (Nat.log2_lt (Nat.mul_ne_zero hm (Nat.ne_of_gt (Nat.two_pow_pos _)))).mp hl
  have hleast : e - ((e + 1074).toNat : Int) = -1074 := by omega
  unfold UnpackedFloat.round decreaseExponent
  dsimp only
  rw [ht, Int.sub_neg, Nat.shiftLeft_eq, hleast, hn]
  exact denotes_least s hlt .exact

theorem denotes_round_high (hhigh : -1022 ≤ (m.log2 : Int) + e) :
    Denotes (UnpackedFloat.round .binary64 s m e) (s.apply (shorten (m * 2 ^ (e + 1074).toNat) : Nat)) := by
  have ht := targetExponent_eq hhigh
  have hd : (e - ((m.log2 : Int) + e - 52)).toNat = 52 - m.log2 := by omega
  have hl : (m * 2 ^ (52 - m.log2)).log2 - 52 = m.log2 - 52 := by
    rw [log2_mul_two_pow hm]
    omega
  obtain ⟨r, f, hr, hround, hlo, hhi, hf, hf', hsum⟩ := roundWithAccuracy_eq s
    (m := m * 2 ^ (52 - m.log2)) (e := e - (52 - m.log2 : Nat)) (by rw [log2_mul_two_pow hm]; omega)
    (by rw [hl]; exact le_significand hm) (by rw [hl]; exact significand_le hm)
  rw [hl] at hf hf' hsum
  change _ = _ + (significand m : Int) at hsum
  have hsig := significand_le hm
  have hplace : shorten (m * 2 ^ (e + 1074).toNat) = r * 2 ^ (f + 1074).toNat := by
    rw [shorten_scale hm (by omega)]
    rcases Int.lt_or_le (e - (52 - m.log2 : Nat) + (m.log2 - 52 : Nat)) f with hcarry | hsame
    · obtain rfl : r = 2 ^ 52 := by omega
      rw [show significand m = 2 ^ 53 by omega, ← Nat.pow_add, ← Nat.pow_add]
      congr 1
      omega
    · rw [show significand m = r by omega]
      congr 2
      omega
  unfold UnpackedFloat.round decreaseExponent
  dsimp only
  rw [ht, hd, Nat.shiftLeft_eq, hround, hplace]
  exact .finite s hr ⟨hhi, by omega, Or.inl hlo⟩

theorem denotes_round :
    Denotes (UnpackedFloat.round .binary64 s m e) (s.apply (shorten (m * 2 ^ (e + 1074).toNat) : Nat)) := by
  rcases Int.lt_or_le ((m.log2 : Int) + e) (-1022) with hlow | hhigh
  · exact denotes_round_low s hm he hlow
  · exact denotes_round_high s hm he hhigh

end

theorem apply_mul (s : Sign) (m n : Nat) : s.apply (m * n : Nat) = s.apply m * n := by
  cases s with
  | negative =>
    change -((m * n : Nat) : Int) = -(m : Int) * n
    rw [Int.natCast_mul, Int.neg_mul]
  | positive => exact Int.natCast_mul m n

theorem denotes_normalize (a : Int) {e : Int} (he : -1074 ≤ e) :
    Denotes (UnpackedFloat.normalize .binary64 a e .positive) (near (a * (2 ^ (e + 1074).toNat : Nat))) := by
  unfold UnpackedFloat.normalize
  rcases Int.lt_trichotomy a 0 with ha | rfl | ha
  · have h := denotes_round .negative (m := (-a).toNat) (by omega) he
    rw [← near_apply, apply_mul] at h
    rw [Int.compare_eq_lt.mpr ha]
    rwa [show Sign.negative.apply ((-a).toNat : Int) = a by unfold Sign.apply; dsimp only; omega] at h
  · rw [Int.zero_mul]
    exact .zero _
  · have h := denotes_round .positive (m := a.toNat) (by omega) he
    rw [← near_apply, apply_mul] at h
    rw [Int.compare_eq_gt.mpr ha]
    rwa [show Sign.positive.apply (a.toNat : Int) = a from Int.toNat_of_nonneg (Int.le_of_lt ha)] at h

section
variable {u v : UnpackedFloat} {a b : Int}

theorem Denotes.near_eq (h : Denotes u a) : near a = a := by
  cases h with
  | zero s => rfl
  | finite s hm hc => rw [near_apply, shorten_of_short hc.lt]

theorem Denotes.add (hu : Denotes u a) (hv : Denotes v b) : Denotes (.add .binary64 u v) (near (a + b)) := by
  cases hu with
  | zero s =>
    rw [Int.zero_add, hv.near_eq]
    cases hv with
    | zero t =>
      change Denotes (if s == t then .zero s else .zero .positive) 0
      split <;> exact .zero _
    | finite t hm hc => exact .finite t hm hc
  | @finite s m e hm hc =>
    cases hv with
    | zero t =>
      rw [Int.add_zero, near_apply, shorten_of_short hc.lt]
      exact .finite s hm hc
    | @finite t n f hn hd =>
      have hle := hc.le
      have hle' := hd.le
      have hsplit (d : Int) (h : min e f ≤ d) :
          2 ^ (d + 1074).toNat = 2 ^ (d - min e f).toNat * 2 ^ (min e f + 1074).toNat := by
        rw [← Nat.pow_add]
        congr 1
        omega
      have hsum : s.apply (m * 2 ^ (e + 1074).toNat : Nat) + t.apply (n * 2 ^ (f + 1074).toNat : Nat) =
          (s.apply (m * 2 ^ (e - min e f).toNat : Nat) + t.apply (n * 2 ^ (f - min e f).toNat : Nat)) *
            (2 ^ (min e f + 1074).toNat : Nat) := by
        rw [Int.add_mul, ← apply_mul, ← apply_mul, Nat.mul_assoc, Nat.mul_assoc, ← hsplit e (by omega),
          ← hsplit f (by omega)]
      unfold UnpackedFloat.add decreaseExponent
      dsimp only
      rw [hsum, Nat.shiftLeft_eq, Nat.shiftLeft_eq]
      exact denotes_normalize _ (by omega)

theorem neg_apply (s : Sign) (n : Int) : (-s).apply n = -s.apply n := by
  cases s with
  | negative => exact (Int.neg_neg _).symm
  | positive => rfl

theorem Denotes.neg (h : Denotes u a) : Denotes u.neg (-a) := by
  cases h with
  | zero s => exact .zero _
  | @finite s m e hm hc =>
    rw [← neg_apply]
    exact .finite (-s) hm hc

theorem Denotes.abs (h : Denotes u a) : Denotes u.abs a.natAbs := by
  cases h with
  | zero s => exact .zero _
  | @finite s m e hm hc =>
    rw [natAbs_apply]
    exact .finite .positive hm hc

theorem sub_eq_add_neg (u v : UnpackedFloat) : UnpackedFloat.sub .binary64 u v = .add .binary64 u v.neg := by
  cases u with
  | notANumber => rfl
  | infinity s => cases v <;> rfl
  | zero s => cases v <;> rfl
  | finite s m e =>
    cases v with
    | notANumber => rfl
    | infinity t => rfl
    | zero t => rfl
    | finite t n f =>
      unfold UnpackedFloat.sub UnpackedFloat.add UnpackedFloat.neg
      dsimp only
      rw [neg_apply, Int.sub_eq_add_neg]

theorem Denotes.sub (hu : Denotes u a) (hv : Denotes v b) : Denotes (.sub .binary64 u v) (near (a - b)) := by
  rw [sub_eq_add_neg, Int.sub_eq_add_neg]
  exact hu.add hv.neg

/-! ## Halves -/

theorem unpack_two : (2.0 : Float).toModel.unpack = .finite .positive (2 ^ 52) (-51) (by decide) :=
  rfl

theorem targetExponent_half (m : Nat) (e : Int) :
    min (e - (-51)) (Float.Model.Format.binary64.targetExponent
      (Float.Model.totalExponent m e - Float.Model.totalExponent (2 ^ 52) (-51))) =
        min (e + 51) (max (m.log2 + e - 54) (-1074)) := by
  change min (e - (-51))
    (max ((m.log2 : Int) + 1 + e - (((2 ^ 52 : Nat).log2 : Int) + 1 + (-51)) - (53 : Nat)) (-1074)) = _
  rw [log2_eq (Nat.le_refl _) (by decide)]
  omega

theorem divCore_two_full {m : Nat} {e : Int} (hlo : 2 ^ 52 ≤ m) (hhi : m < 2 ^ 53) (he : -1073 ≤ e) :
    ∃ (f : Int) (k : Nat), k ≤ 1 ∧ f + k = e - 1 ∧ divCore .binary64 m e (2 ^ 52) (-51) = (m * 2 ^ k, f, .exact) := by
  have ht : min (e + 51) (max ((m.log2 : Int) + e - 54) (-1074)) = max (e - 2) (-1074) := by
    rw [log2_eq hlo hhi]
    omega
  refine ⟨max (e - 2) (-1074), (e - 1 - max (e - 2) (-1074)).toNat, by omega, by omega, ?_⟩
  have hk : (e - (-51) - max (e - 2) (-1074)).toNat = (e - 1 - max (e - 2) (-1074)).toNat + 52 := by omega
  unfold divCore
  dsimp only
  rw [targetExponent_half, ht, hk, Nat.shiftLeft_eq, Nat.pow_add, ← Nat.mul_assoc, Nat.mul_div_cancel _ (by decide),
    Nat.mul_mod_left]
  rfl

theorem divCore_two_least {m : Nat} (hm : m < 2 ^ 53) :
    divCore .binary64 m (-1074) (2 ^ 52) (-51) = (m / 2, -1074, if m % 2 = 0 then .exact else .inexact .eq) := by
  have hl := log2_lt_53 hm
  have ht : min (-1074 + 51) (max ((m.log2 : Int) + -1074 - 54) (-1074)) = -1074 := by omega
  have hdiv : m * 2 ^ 51 / 2 ^ 52 = m / 2 := by omega
  have hmod : m * 2 ^ 51 % 2 ^ 52 = m % 2 * 2 ^ 51 := by omega
  unfold divCore
  dsimp only
  rw [targetExponent_half, ht, show (-1074 - (-51) - -1074 : Int).toNat = 51 from rfl, Nat.shiftLeft_eq, hdiv, hmod]
  rcases Nat.mod_two_eq_zero_or_one m with h | h <;> rw [h] <;> rfl

theorem halfEven_one (m : Nat) :
    halfEven m 1 = (if m % 2 = 0 then .exact else .inexact .eq : Accuracy).roundToNearestEven (m / 2) := by
  unfold halfEven
  rcases Nat.mod_two_eq_zero_or_one m with h | h <;> simp [h, Accuracy.roundToNearestEven]

theorem Denotes.half (h : Denotes u a) : Denotes (.div .binary64 u (2.0 : Float).toModel.unpack) (halve a) := by
  rw [unpack_two]
  cases h with
  | zero s => exact .zero _
  | @finite s m e hm hc =>
    have hs : s / Sign.positive = s := by cases s <;> rfl
    obtain ⟨hhi, hle, hfull⟩ := hc
    unfold UnpackedFloat.div
    dsimp only
    rw [hs, halve_apply]
    by_cases he : e = -1074
    · subst he
      rw [divCore_two_least hhi, show (-1074 + 1074 : Int).toNat = 0 from rfl, Nat.pow_zero, Nat.mul_one, halfEven_one]
      exact denotes_least s (by omega) _
    · have hlo : 2 ^ 52 ≤ m := by omega
      obtain ⟨f, k, hk, hf, hdiv⟩ := divCore_two_full hlo hhi (show -1073 ≤ e by omega)
      have hl : (m * 2 ^ k).log2 = 52 + k := by rw [log2_mul_two_pow (by omega), log2_eq hlo hhi]
      have hhalf : halfEven (m * 2 ^ k) ((m * 2 ^ k).log2 - 52) = m := by
        rw [hl, Nat.add_sub_cancel_left, halfEven_mul]
      obtain ⟨r, g, hr, hround, hlo', hhi', hg, hg', hsum⟩ := roundWithAccuracy_eq s (m := m * 2 ^ k) (e := f)
        (by omega) (by rw [hhalf]; exact hlo) (by rw [hhalf]; omega)
      rw [hhalf, hl] at hsum
      have hplace : halfEven (m * 2 ^ (e + 1074).toNat) 1 = r * 2 ^ (g + 1074).toNat := by
        rw [show (e + 1074).toNat = (g + 1074).toNat + 1 by omega, Nat.pow_add, ← Nat.mul_assoc, halfEven_mul,
          show m = r by omega]
      rw [hdiv, hplace]
      dsimp only
      rw [hround]
      exact .finite s hr ⟨hhi', by omega, Or.inl hlo'⟩

end

end TriGraph.Number
