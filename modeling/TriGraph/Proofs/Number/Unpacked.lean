import TriGraph.Proofs.Number.Exact

/-!
# Floats taken apart

Arithmetic takes a float apart into what it stands for: nothing, an infinity, a zero, or a significand and an
exponent. A finite float that is put together again is the same, so whether an operation yields a number follows from
what the operands stand for.
-/

namespace TriGraph.Number

open Float.Model (UnpackedFloat)
open Float.Model.UnpackedFloat

def signOf (x : Float) : Sign :=
  if isNegative x then .negative else .positive

def packed (u : UnpackedFloat) : Float :=
  .ofModel (.pack u)

/-! ## Taking apart -/

inductive Unpacks (x : Float) : UnpackedFloat → Prop where
  | notANumber (h : isNaN x = true) : Unpacks x .notANumber
  | infinity (h : magnitude x = infiniteMagnitude) : Unpacks x (.infinity (signOf x))
  | zero (h : magnitude x = 0) : Unpacks x (.zero (signOf x))
  | finite {m : Nat} {e : Int} (hf : isFinite x = true) (hp : parts x = (m, e)) (hm : 0 < m) :
      Unpacks x (.finite (signOf x) m e hm)

theorem toNat_unpackExponent (x : Float) :
    (@unpackExponent .binary64 x.toModel.toBits.toBitVec).toNat = magnitude x / 2 ^ 52 := by
  change (x.toBits.toNat >>> 52) % 2 ^ 11 = _
  rw [Nat.shiftRight_eq_div_pow, toNat_toBits]
  have := Nat.mod_lt x.toBits.toNat (show 0 < signWeight by decide)
  change magnitude x < signWeight at this
  unfold signWeight at this ⊢
  split <;> omega

theorem toNat_unpackMantissa (x : Float) :
    (@unpackMantissa .binary64 x.toModel.toBits.toBitVec).toNat = magnitude x % 2 ^ 52 := by
  change (x.toBits.toNat >>> 0) % 2 ^ 52 = _
  rw [Nat.shiftRight_zero, toNat_toBits]
  unfold signWeight
  split <;> omega

theorem ofBitVec_unpackSign (x : Float) :
    Sign.ofBitVec (@unpackSign .binary64 x.toModel.toBits.toBitVec) = signOf x := by
  have hsign : (@unpackSign .binary64 x.toModel.toBits.toBitVec).toNat = x.toBits.toNat / 2 ^ 63 % 2 := by
    change (x.toBits.toNat >>> 63) % 2 ^ 1 = _
    rw [Nat.shiftRight_eq_div_pow]
  have hlt := x.toBits.toNat_lt
  have hneg : isNegative x = true ↔ 2 ^ 63 ≤ x.toBits.toNat := decide_eq_true_iff
  unfold Sign.ofBitVec signOf
  by_cases hx : isNegative x = true
  · have hone : ¬@unpackSign .binary64 x.toModel.toBits.toBitVec = 0#1 := by
      rw [← BitVec.toNat_inj, hsign]
      change ¬_ = 0
      have := hneg.mp hx
      omega
    rw [if_pos hx, if_neg hone]
  · have hzero : @unpackSign .binary64 x.toModel.toBits.toBitVec = 0#1 := by
      rw [← BitVec.toNat_inj, hsign]
      change _ = 0
      have := mt hneg.mpr hx
      omega
    rw [if_neg hx, if_pos hzero]

theorem unpacks (x : Float) : Unpacks x x.toModel.unpack := by
  have he := toNat_unpackExponent x
  have hf := toNat_unpackMantissa x
  have hd := Nat.div_add_mod (magnitude x) (2 ^ 52)
  change Unpacks x (UnpackedFloat.unpack .binary64 x.toModel.toBits.toBitVec)
  unfold UnpackedFloat.unpack
  dsimp only
  rw [ofBitVec_unpackSign]
  generalize @unpackExponent .binary64 x.toModel.toBits.toBitVec = E at he
  have hlt : magnitude x % 2 ^ 52 < 2 ^ 52 := Nat.mod_lt _ (by decide)
  refine iteInduction (fun hE => ?_) fun hE => ?_
  · rw [hE] at he
    change 2047 = _ at he
    refine iteInduction (fun hz => ?_) fun hz => ?_
    · rw [hz] at hf
      change 0 = _ at hf
      refine .infinity ?_
      unfold infiniteMagnitude leastNormal
      omega
    · have hz : magnitude x % 2 ^ 52 ≠ 0 := fun h => hz (BitVec.toNat_inj.mp (hf.trans h))
      refine .notANumber ?_
      unfold isNaN infiniteMagnitude leastNormal
      rw [decide_eq_true_iff]
      omega
  · have hE : E.toNat ≠ 2047 := fun h => hE (BitVec.toNat_inj.mp h)
    have hElt : E.toNat < 2 ^ 11 := E.isLt
    have hfinite : isFinite x = true := by
      unfold isFinite infiniteMagnitude leastNormal
      rw [decide_eq_true_iff]
      omega
    refine iteInduction (fun hE => ?_) fun hE => ?_
    · rw [hE] at he
      change 0 = _ at he
      by_cases hz : @unpackMantissa .binary64 x.toModel.toBits.toBitVec = 0#52
      · rw [dif_pos hz]
        rw [hz] at hf
        change 0 = _ at hf
        exact .zero (by omega)
      · rw [dif_neg hz]
        refine .finite hfinite ?_ _
        unfold parts
        change (if magnitude x / 2 ^ 52 = 0 then (magnitude x % 2 ^ 52, -1074) else _) = _
        rw [if_pos he.symm, ← hf, hE]
        rfl
    · have hE : E.toNat ≠ 0 := fun h => hE (BitVec.toNat_inj.mp h)
      refine .finite hfinite ?_ _
      unfold parts
      change (if magnitude x / 2 ^ 52 = 0 then _ else
        (magnitude x % 2 ^ 52 + 2 ^ 52, ((magnitude x / 2 ^ 52 : Nat) : Int) - 1075)) = _
      rw [if_neg (he ▸ hE), BitVec.toNat_append, ← Nat.shiftLeft_add_eq_or_of_lt (BitVec.isLt _), ← hf, ← he,
        Nat.add_comm]
      rfl

/-! ## Questions about what a float stands for -/

def isNull : UnpackedFloat → Bool
  | .zero _ => true
  | _ => false

section
variable {x : Float} {u : UnpackedFloat}

theorem Unpacks.isNaN_eq (h : Unpacks x u) : isNaN x = u.isNaN := by
  cases h with
  | notANumber h => exact h
  | infinity h =>
    unfold isNaN
    rw [h]
    rfl
  | zero h =>
    unfold isNaN
    rw [h]
    rfl
  | finite hf => exact isNaN_of_isFinite hf

theorem Unpacks.isFinite_eq (h : Unpacks x u) : isFinite x = u.isFinite := by
  cases h with
  | notANumber h =>
    unfold isNaN at h
    unfold isFinite
    rw [decide_eq_true_iff] at h
    exact decide_eq_false (Nat.lt_asymm h)
  | infinity h =>
    unfold isFinite
    rw [h]
    rfl
  | zero h =>
    unfold isFinite
    rw [h]
    rfl
  | finite hf => exact hf

theorem Unpacks.isZero_eq (h : Unpacks x u) : isZero x = isNull u := by
  cases h with
  | notANumber h =>
    unfold isNaN at h
    rw [decide_eq_true_iff] at h
    exact decide_eq_false (Nat.ne_of_gt (Nat.lt_of_le_of_lt (Nat.zero_le _) h))
  | infinity h =>
    unfold isZero
    rw [h]
    rfl
  | zero h => exact decide_eq_true h
  | finite _ hp hm =>
    refine decide_eq_false fun hz => ?_
    unfold parts at hp
    rw [hz] at hp
    cases hp
    cases hm

theorem unpack_of_not_finite (hx : isNaN x = false) (h : isFinite x = false) :
    x.toModel.unpack = .infinity (signOf x) := by
  have hu := unpacks x
  generalize x.toModel.unpack = u at hu
  cases hu with
  | notANumber hnan =>
    rw [hnan] at hx
    cases hx
  | infinity => rfl
  | zero hz =>
    unfold isFinite at h
    rw [hz] at h
    cases h
  | finite hf =>
    rw [hf] at h
    cases h

theorem isNaN_unpack (x : Float) : isNaN x = x.toModel.unpack.isNaN :=
  (unpacks x).isNaN_eq

theorem isFinite_unpack (x : Float) : isFinite x = x.toModel.unpack.isFinite :=
  (unpacks x).isFinite_eq

theorem isZero_unpack (x : Float) : isZero x = isNull x.toModel.unpack :=
  (unpacks x).isZero_eq

end

/-! ## Putting together -/

theorem toNat_toBits_packed (u : UnpackedFloat) :
    (packed u).toBits.toNat = (UnpackedFloat.pack .binary64 u).toNat :=
  rfl

theorem magnitude_packed {u : UnpackedFloat} {s : Sign} {e : BitVec 11} {m : BitVec 52}
    (h : UnpackedFloat.pack .binary64 u = packComponents .binary64 s e m) :
    magnitude (packed u) = e.toNat * 2 ^ 52 + m.toNat := by
  have he : e.toNat < 2 ^ 11 := e.isLt
  have hm : m.toNat < 2 ^ 52 := m.isLt
  unfold magnitude signWeight
  rw [toNat_toBits_packed, h, toNat_packComponents]
  omega

theorem pack_finite (s : Sign) (m : Nat) (e : Int) (hm : 0 < m) :
    UnpackedFloat.pack .binary64 (.finite s m e hm) =
      if 2 ^ 11 ≤ (e + (1023 : Nat) + (52 : Nat)).toNat + 1 then packComponents .binary64 s (-1#11) 0
      else if m.log2 + 1 = 53 then
        packComponents .binary64 s (BitVec.ofNat 11 (e + (1023 : Nat) + (52 : Nat)).toNat) (BitVec.ofNat 52 m)
      else packComponents .binary64 s 0#11 (BitVec.ofNat 52 m) :=
  rfl

theorem magnitude_packed_le (s : Sign) (m : Nat) (e : Int) (hm : 0 < m) :
    magnitude (packed (.finite s m e hm)) ≤ infiniteMagnitude := by
  have hp := pack_finite s m e hm
  by_cases hbig : 2 ^ 11 ≤ (e + (1023 : Nat) + (52 : Nat)).toNat + 1
  · rw [if_pos hbig] at hp
    rw [magnitude_packed hp]
    exact Nat.le_refl _
  · have hsmall : (BitVec.ofNat 52 m).toNat < 2 ^ 52 := BitVec.isLt _
    rw [if_neg hbig] at hp
    unfold infiniteMagnitude leastNormal
    by_cases hfull : m.log2 + 1 = 53
    · rw [if_pos hfull] at hp
      rw [magnitude_packed hp, BitVec.toNat_ofNat]
      omega
    · rw [if_neg hfull] at hp
      rw [magnitude_packed hp, BitVec.toNat_zero]
      omega

theorem isNaN_packed (u : UnpackedFloat) : isNaN (packed u) = u.isNaN := by
  cases u with
  | notANumber => rfl
  | infinity s => cases s <;> rfl
  | zero s => cases s <;> rfl
  | finite s m e hm => exact decide_eq_false (Nat.not_lt.mpr (magnitude_packed_le s m e hm))

theorem isFinite_packed_of_not {u : UnpackedFloat} (h : u.isFinite = false) : isFinite (packed u) = false := by
  cases u with
  | notANumber => rfl
  | infinity s => cases s <;> rfl
  | zero s => cases h
  | finite s m e hm => cases h

/-- The significand has 53 bits, or the exponent is the least. -/
structure Canonical (m : Nat) (e : Int) : Prop where
  lt : m < 2 ^ 53
  le : -1074 ≤ e
  full : 2 ^ 52 ≤ m ∨ e = -1074

theorem canonical_parts (x : Float) : Canonical (parts x).1 (parts x).2 := by
  rcases parts_eq x with ⟨hm, hp⟩ | ⟨m, k, hlo, hhi, -, hp⟩
  · rw [hp]
    exact ⟨by dsimp only; omega, Int.le_refl _, Or.inr rfl⟩
  · rw [hp]
    exact ⟨hhi, by dsimp only; omega, Or.inl hlo⟩

theorem parts_le {x : Float} (hx : isFinite x = true) : (parts x).2 ≤ 971 := by
  unfold isFinite infiniteMagnitude leastNormal at hx
  rw [decide_eq_true_iff] at hx
  rcases parts_eq x with ⟨-, hp⟩ | ⟨m, k, hlo, hhi, hm, hp⟩
  · rw [hp]
    dsimp only
    omega
  · rw [hp]
    dsimp only
    omega

section
variable {s : Sign} {m : Nat} {e : Int} {hm : 0 < m} (hc : Canonical m e) (he : e ≤ 971)
include hc he

theorem toNat_pack_canonical : (UnpackedFloat.pack .binary64 (.finite s m e hm)).toNat =
    s.toBitVec.toNat * 2 ^ 63 + ((e + 1074).toNat * 2 ^ 52 + m) := by
  obtain ⟨hlt, hle, hfull⟩ := hc
  rcases Nat.lt_or_ge m (2 ^ 52) with hsmall | hlarge
  · obtain rfl : e = -1074 := by omega
    have hl : ¬m.log2 + 1 = 53 := by
      have := (Nat.log2_lt (Nat.ne_of_gt hm)).mpr hsmall
      omega
    rw [pack_finite, if_neg (by decide), if_neg hl, toNat_packComponents, BitVec.toNat_zero,
      BitVec.toNat_ofNat, Nat.mod_eq_of_lt hsmall]
    omega
  · exact toNat_pack s hm hlarge hlt hle he

theorem magnitude_packed_canonical : magnitude (packed (.finite s m e hm)) = (e + 1074).toNat * 2 ^ 52 + m := by
  have hlt := hc.lt
  unfold magnitude signWeight
  rw [toNat_toBits_packed, toNat_pack_canonical hc he]
  omega

theorem isFinite_packed : isFinite (packed (.finite s m e hm)) = true := by
  have hlt := hc.lt
  unfold isFinite infiniteMagnitude leastNormal
  rw [magnitude_packed_canonical hc he, decide_eq_true_iff]
  omega

theorem parts_packed : parts (packed (.finite s m e hm)) = (m, e) := by
  have hmag := @magnitude_packed_canonical s m e hm hc he
  obtain ⟨hlt, hle, hfull⟩ := hc
  rcases parts_eq (packed (.finite s m e hm)) with ⟨hsmall, hp⟩ | ⟨n, k, hlo, hhi, hn, hp⟩
  · rw [hp]
    obtain rfl : e = -1074 := by omega
    rw [hmag]
    simp
  · have hfull : 2 ^ 52 ≤ m := by omega
    have hk : ((k : Nat) : Int) = e + 1074 := by omega
    rw [hp, show n = m by omega, hk]
    congr 1
    omega

theorem isNegative_packed : isNegative (packed (.finite s m e hm)) = (s == .negative) := by
  have hlt := hc.lt
  unfold isNegative signWeight
  rw [toNat_toBits_packed, toNat_pack_canonical hc he]
  cases s with
  | negative => exact decide_eq_true (by simp [Sign.toBitVec])
  | positive => exact decide_eq_false (by simp [Sign.toBitVec]; omega)

end

end TriGraph.Number
