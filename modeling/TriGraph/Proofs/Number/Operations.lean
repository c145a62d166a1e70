import TriGraph.Proofs.Number.Arithmetic

/-!
# Operations on all floats

What an operation yields for floats that need not be finite: when it is a number at all, when it is finite and when it
is zero.
-/

namespace TriGraph.Number

open Float.Model (UnpackedFloat)
open Float.Model.UnpackedFloat

/-! ## Operations on what is taken apart -/

theorem add_eq (x y : Float) : x + y = packed (.add .binary64 x.toModel.unpack y.toModel.unpack) :=
  rfl

theorem sub_eq (x y : Float) : x - y = packed (.sub .binary64 x.toModel.unpack y.toModel.unpack) :=
  rfl

theorem div_eq (x y : Float) : x / y = packed (.div .binary64 x.toModel.unpack y.toModel.unpack) :=
  rfl

theorem abs_eq (x : Float) : x.abs = packed x.toModel.unpack.abs :=
  rfl

section
variable {u v : UnpackedFloat}

theorem isFinite_of_isFinite_packed (h : isFinite (packed u) = true) : u.isFinite = true := by
  cases hu : u.isFinite with
  | true => rfl
  | false =>
    rw [isFinite_packed_of_not hu] at h
    cases h

theorem isFinite_neg : u.neg.isFinite = u.isFinite := by
  cases u <;> rfl

theorem isFinite_operands (h : (UnpackedFloat.add .binary64 u v).isFinite = true) :
    u.isFinite = true ∧ v.isFinite = true := by
  cases u with
  | notANumber => cases h
  | infinity s =>
    cases v with
    | notANumber => cases h
    | infinity t =>
      unfold UnpackedFloat.add at h
      dsimp only at h
      split at h <;> cases h
    | zero t => cases h
    | finite t => cases h
  | zero s =>
    cases v with
    | notANumber => cases h
    | infinity t => cases h
    | zero t => exact ⟨rfl, rfl⟩
    | finite t => exact ⟨rfl, rfl⟩
  | finite s =>
    cases v with
    | notANumber => cases h
    | infinity t => cases h
    | zero t => exact ⟨rfl, rfl⟩
    | finite t => exact ⟨rfl, rfl⟩

theorem isNaN_zero_or_finite (s : Sign) (m : Nat) (e : Int) :
    (if h : m = 0 then UnpackedFloat.zero s else .finite s m e (Nat.pos_of_ne_zero h)).isNaN = false := by
  by_cases hz : m = 0
  · rw [dif_pos hz]
    rfl
  · rw [dif_neg hz]
    rfl

theorem isNaN_roundWithAccuracy (s : Sign) (m : Nat) (e : Int) (acc : Accuracy) :
    (roundWithAccuracy .binary64 s m e acc).isNaN = false :=
  isNaN_zero_or_finite s _ _

theorem isNaN_normalize (a : Int) (e : Int) (s : Sign) : (UnpackedFloat.normalize .binary64 a e s).isNaN = false := by
  unfold UnpackedFloat.normalize
  split
  · exact isNaN_roundWithAccuracy _ _ _ _
  · rfl
  · exact isNaN_roundWithAccuracy _ _ _ _

theorem isNaN_neg : u.neg.isNaN = u.isNaN := by
  cases u <;> rfl

theorem isNaN_add_unpacked (hu : u.isFinite = true) : (UnpackedFloat.add .binary64 u v).isNaN = v.isNaN := by
  cases u with
  | notANumber => cases hu
  | infinity s => cases hu
  | zero s =>
    cases v with
    | notANumber => rfl
    | infinity t => rfl
    | zero t =>
      unfold UnpackedFloat.add
      dsimp only
      split <;> rfl
    | finite t => rfl
  | finite s =>
    cases v with
    | notANumber => rfl
    | infinity t => rfl
    | zero t => rfl
    | finite t => exact isNaN_normalize _ _ _

theorem isNaN_div_unpacked : (UnpackedFloat.div .binary64 u v).isNaN =
    (u.isNaN || v.isNaN || (!u.isFinite && !v.isFinite) || (isNull u && isNull v)) := by
  cases u <;> cases v <;> first | rfl | exact isNaN_roundWithAccuracy _ _ _ _

theorem infinity_sub (s : Sign) (hv : v.isFinite = true) :
    UnpackedFloat.sub .binary64 (.infinity s) v = .infinity s := by
  cases v with
  | notANumber => cases hv
  | infinity t => cases hv
  | zero t => rfl
  | finite t => rfl

theorem sub_infinity (s : Sign) (hu : u.isFinite = true) :
    UnpackedFloat.sub .binary64 u (.infinity s) = .infinity (-s) := by
  cases u with
  | notANumber => cases hu
  | infinity t => cases hu
  | zero t => rfl
  | finite t => rfl

theorem isFinite_div_unpacked (hv : v.isFinite = true) (h : (UnpackedFloat.div .binary64 u v).isFinite = true) :
    u.isFinite = true := by
  cases u with
  | notANumber => cases h
  | infinity s =>
    cases v with
    | notANumber => cases hv
    | infinity t => cases hv
    | zero t => cases h
    | finite t => cases h
  | zero s => rfl
  | finite s => rfl

end

/-! ## Numbers -/

variable {x y : Float}

theorem isNaN_add (hx : isFinite x = true) : isNaN (x + y) = isNaN y := by
  rw [isFinite_unpack] at hx
  rw [add_eq, isNaN_packed, isNaN_add_unpacked hx, ← isNaN_unpack]

theorem isNaN_sub (hx : isFinite x = true) : isNaN (x - y) = isNaN y := by
  rw [isFinite_unpack] at hx
  rw [sub_eq, isNaN_packed, sub_eq_add_neg, isNaN_add_unpacked hx, isNaN_neg, ← isNaN_unpack]

theorem isNaN_sub_self (hx : isFinite x = false) : isNaN (x - x) = true := by
  rw [isFinite_unpack] at hx
  rw [sub_eq, isNaN_packed]
  generalize x.toModel.unpack = u at hx
  cases u with
  | notANumber => rfl
  | infinity s => cases s <;> rfl
  | zero s => cases hx
  | finite s => cases hx

theorem isNaN_div : isNaN (x / y) = true ↔
    isNaN x = true ∨ isNaN y = true ∨ isFinite x = false ∧ isFinite y = false ∨ isZero x = true ∧ isZero y = true := by
  rw [div_eq, isNaN_packed, isNaN_div_unpacked, ← isNaN_unpack, ← isNaN_unpack, ← isFinite_unpack,
    ← isFinite_unpack, ← isZero_unpack, ← isZero_unpack]
  simp [or_assoc]

theorem isNaN_half : isNaN (x / 2.0) = isNaN x := by
  rw [Bool.eq_iff_iff, isNaN_div, show isNaN 2.0 = false by decide +kernel, show isFinite 2.0 = true by decide +kernel,
    show isZero 2.0 = false by decide +kernel]
  simp

theorem isNaN_abs : isNaN x.abs = isNaN x := by
  rw [abs_eq, isNaN_packed, isNaN_unpack]
  cases x.toModel.unpack <;> rfl

/-! ## Finite floats -/

theorem isFinite_add (hx : isFinite x = true) (hy : isFinite y = true)
    (h : (place x + place y).natAbs + slack < beyond) :
    isFinite (x + y) = true ∧ place (x + y) = near (place x + place y) := by
  have herr := near_error (a := place x + place y) (by omega)
  exact ((denotes_unpack hx).add (denotes_unpack hy)).packed (by omega)

theorem isFinite_sub (hx : isFinite x = true) (hy : isFinite y = true)
    (h : (place x - place y).natAbs + slack < beyond) : isFinite (x - y) = true := by
  have herr := near_error (a := place x - place y) (by omega)
  exact (((denotes_unpack hx).sub (denotes_unpack hy)).packed (by omega)).1

theorem isFinite_half_place (hx : isFinite x = true) :
    isFinite (x / 2.0) = true ∧ place (x / 2.0) = halve (place x) := by
  have herr := halve_error (place x)
  have hle := natAbs_place_le hx
  have := two_le_slack
  exact (denotes_unpack hx).half.packed (by omega)

/-! ## Infinities -/

theorem rank_of_not_finite (hx : isNaN x = false) (h : isFinite x = false) :
    rank x = (signOf x).apply infiniteMagnitude := by
  have hmag : magnitude x = infiniteMagnitude := by
    unfold isNaN at hx
    unfold isFinite at h
    rw [decide_eq_false_iff_not] at hx h
    omega
  unfold rank signOf
  rw [hmag]
  split <;> rfl

theorem sub_of_less (h : less x y = true) (hinf : ¬(isFinite x = true ∧ isFinite y = true)) :
    y - x = packed (.infinity .positive) := by
  obtain ⟨hx, hy, hlt⟩ := less_iff.mp h
  have hlow := rank_bounds hx
  have hhigh := rank_bounds hy
  have hneg : isFinite x = false → x.toModel.unpack = .infinity .negative := by
    intro hfx
    rw [rank_of_not_finite hx hfx] at hlt
    rw [unpack_of_not_finite hx hfx]
    cases hs : signOf x with
    | negative => rfl
    | positive =>
      rw [hs] at hlt
      exact absurd hhigh.2 (Int.not_le.mpr hlt)
  have hpos : isFinite y = false → y.toModel.unpack = .infinity .positive := by
    intro hfy
    rw [rank_of_not_finite hy hfy] at hlt
    rw [unpack_of_not_finite hy hfy]
    cases hs : signOf y with
    | negative =>
      rw [hs] at hlt
      exact absurd hlow.1 (Int.not_le.mpr hlt)
    | positive => rfl
  rw [sub_eq]
  cases hfx : isFinite x with
  | true =>
    cases hfy : isFinite y with
    | true => exact absurd ⟨hfx, hfy⟩ hinf
    | false =>
      rw [hpos hfy, infinity_sub _ (isFinite_unpack x ▸ hfx)]
  | false =>
    rw [hneg hfx]
    cases hfy : isFinite y with
    | true =>
      rw [sub_infinity _ (isFinite_unpack y ▸ hfy)]
      rfl
    | false =>
      rw [hpos hfy]
      rfl

theorem isFinite_of_add (h : isFinite (x + y) = true) : isFinite x = true ∧ isFinite y = true := by
  rw [isFinite_unpack, isFinite_unpack]
  exact isFinite_operands (isFinite_of_isFinite_packed h)

theorem isFinite_of_sub (h : isFinite (x - y) = true) : isFinite x = true ∧ isFinite y = true := by
  have h := isFinite_of_isFinite_packed h
  rw [sub_eq_add_neg] at h
  rw [isFinite_unpack, isFinite_unpack, ← isFinite_neg (u := y.toModel.unpack)]
  exact isFinite_operands h

theorem isFinite_abs : isFinite x.abs = isFinite x := by
  cases hx : isFinite x with
  | true =>
    have hlt := natAbs_place_le hx
    have hpos := two_le_slack
    exact ((denotes_unpack hx).abs.packed (by omega)).1
  | false =>
    rw [isFinite_unpack] at hx
    refine isFinite_packed_of_not ?_
    rw [← hx]
    cases x.toModel.unpack <;> rfl

theorem isFinite_half : isFinite (x / 2.0) = isFinite x := by
  rw [Bool.eq_iff_iff]
  constructor
  · intro h
    rw [isFinite_unpack x]
    exact isFinite_div_unpacked rfl (isFinite_of_isFinite_packed h)
  · exact fun hx => (isFinite_half_place hx).1

theorem div_of_not_finite (hy : isFinite y = false) (h : isNaN (x / y) = false) : ∃ s, x / y = packed (.zero s) := by
  rw [isFinite_unpack] at hy
  rw [div_eq, isNaN_packed] at h
  rw [div_eq]
  generalize x.toModel.unpack = u at h
  generalize y.toModel.unpack = v at hy h
  cases v with
  | notANumber => cases u <;> cases h
  | infinity t =>
    cases u with
    | notANumber => cases h
    | infinity s => cases h
    | zero s => exact ⟨s / t, rfl⟩
    | finite s => exact ⟨s / t, rfl⟩
  | zero t => cases hy
  | finite t => cases hy

/-! ## Zeros -/

theorem isFinite_of_isZero (h : isZero x = true) : isFinite x = true := by
  simp only [isZero, isFinite, decide_eq_true_eq] at h ⊢
  rw [h]
  decide

theorem isZero_sub_iff (hx : isFinite x = true) (hy : isFinite y = true) :
    isZero (x - y) = true ↔ rank x = rank y := by
  rw [← place_eq_iff, ← Int.sub_eq_zero, ← near_eq_zero_iff]
  exact ((denotes_unpack hx).sub (denotes_unpack hy)).isZero_packed_iff

theorem isZero_abs : isZero x.abs = isZero x := by
  rw [Bool.eq_iff_iff]
  cases hx : isFinite x with
  | true =>
    rw [abs_eq, (denotes_unpack hx).abs.isZero_packed_iff, ← place_eq_zero_iff]
    omega
  | false =>
    refine iff_of_false (fun h => ?_) fun h => ?_
    · rw [← isFinite_abs, isFinite_of_isZero h] at hx
      cases hx
    · rw [isFinite_of_isZero h] at hx
      cases hx

theorem isZero_half_iff : isZero (x / 2.0) = true ↔ magnitude x ≤ 1 := by
  cases hx : isFinite x with
  | true =>
    have hsmall := @ulps_of_small x
    rw [div_eq, (denotes_unpack hx).half.isZero_packed_iff, halve_eq_zero_iff, place, natAbs_withSign]
    omega
  | false =>
    refine iff_of_false (fun h => ?_) fun h => ?_
    · rw [← isFinite_half, isFinite_of_isZero h] at hx
      cases hx
    · simp only [isFinite, decide_eq_false_iff_not] at hx
      exact hx (Nat.lt_of_le_of_lt h (by decide))

end TriGraph.Number
