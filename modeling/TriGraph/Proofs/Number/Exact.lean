import TriGraph.Proofs.Number.Rounding

/-!
# Exact integers

The order of the floats of integers is that of the integers, though many large integers may share a float. A float
that is whole is the float of its integer, so a number keeps its place in the order whichever way it is written.
-/

namespace TriGraph.Number

/-! ## Floats by sign and magnitude -/

theorem toNat_toBits (x : Float) :
    x.toBits.toNat = (if isNegative x then signWeight else 0) + magnitude x := by
  have hlt := x.toBits.toNat_lt
  unfold isNegative magnitude signWeight
  by_cases hs : 0x8000000000000000 ≤ x.toBits.toNat
  · rw [if_pos (decide_eq_true hs)]
    omega
  · rw [if_neg (by simpa using hs), Nat.mod_eq_of_lt (Nat.not_le.mp hs), Nat.zero_add]

theorem eq_of_toBits_eq {x y : Float} (h : x.toBits = y.toBits) : x = y := by
  obtain ⟨⟨b, hb⟩⟩ := x
  obtain ⟨⟨c, hc⟩⟩ := y
  cases (show b = c from h)
  rfl

theorem eq_of_sign_magnitude {x y : Float} (hs : isNegative x = isNegative y)
    (hm : magnitude x = magnitude y) : x = y := by
  apply eq_of_toBits_eq
  apply UInt64.toNat_inj.mp
  rw [toNat_toBits, toNat_toBits, hs, hm]

theorem rank_cases (x : Float) :
    isNegative x = true ∧ rank x = -(magnitude x : Int) ∧ totalRank x = -(magnitude x : Int) - 1 ∨
      isNegative x = false ∧ rank x = magnitude x ∧ totalRank x = magnitude x := by
  cases hs : isNegative x with
  | true => exact Or.inl ⟨rfl, if_pos hs, if_pos hs⟩
  | false =>
    have hs : ¬isNegative x = true := Bool.eq_false_iff.mp hs
    exact Or.inr ⟨rfl, if_neg hs, if_neg hs⟩

theorem natAbs_rank (x : Float) : (rank x).natAbs = magnitude x := by
  obtain ⟨-, hx, -⟩ | ⟨-, hx, -⟩ := rank_cases x
  · omega
  · omega

theorem magnitude_eq_of_rank_eq {x y : Float} (h : rank x = rank y) : magnitude x = magnitude y := by
  rw [← natAbs_rank, h, natAbs_rank]

theorem eq_of_rank_eq {x y : Float} (h : rank x = rank y) (hz : magnitude x ≠ 0) : x = y := by
  refine eq_of_sign_magnitude ?_ (magnitude_eq_of_rank_eq h)
  obtain ⟨hsx, hx, -⟩ | ⟨hsx, hx, -⟩ := rank_cases x
  · obtain ⟨hsy, hy, -⟩ | ⟨hsy, hy, -⟩ := rank_cases y
    · exact hsx.trans hsy.symm
    · omega
  · obtain ⟨hsy, hy, -⟩ | ⟨hsy, hy, -⟩ := rank_cases y
    · omega
    · exact hsx.trans hsy.symm

theorem isNaN_of_isFinite {x : Float} (h : isFinite x = true) : isNaN x = false := by
  simp only [isFinite, isNaN, decide_eq_true_eq, decide_eq_false_iff_not] at h ⊢
  omega

theorem equal_iff {x y : Float} : equal x y = true ↔ isNaN x = false ∧ isNaN y = false ∧ rank x = rank y := by
  unfold equal compare?
  cases isNaN x <;> cases isNaN y <;> simp

theorem less_iff {x y : Float} : less x y = true ↔ isNaN x = false ∧ isNaN y = false ∧ rank x < rank y := by
  unfold less compare?
  cases isNaN x <;> cases isNaN y <;> simp [Int.compare_eq_lt]

theorem atMost_iff {x y : Float} : atMost x y = true ↔ isNaN x = false ∧ isNaN y = false ∧ rank x ≤ rank y := by
  rw [atMost, Bool.or_eq_true, less_iff, equal_iff, ← and_or_left, ← and_or_left, Int.le_iff_lt_or_eq]

theorem rank_bounds {x : Float} (h : isNaN x = false) :
    -(infiniteMagnitude : Int) ≤ rank x ∧ rank x ≤ infiniteMagnitude := by
  unfold isNaN at h
  rw [decide_eq_false_iff_not] at h
  unfold rank
  split <;> omega

theorem isFinite_iff_rank {x : Float} :
    isFinite x = true ↔ -(infiniteMagnitude : Int) < rank x ∧ rank x < infiniteMagnitude := by
  unfold isFinite rank
  rw [decide_eq_true_iff]
  split <;> omega

theorem equal_comm (x y : Float) : equal x y = equal y x := by
  rw [Bool.eq_iff_iff, equal_iff, equal_iff, eq_comm (a := rank x)]
  exact and_left_comm

/-! ## The order of integers -/

theorem isNaN_ofInt {n : Int} (h : n.natAbs ≤ 2 ^ 64) : isNaN (ofInt n) = false :=
  isNaN_of_isFinite (isFinite_ofInt h)

theorem rank_ofInt {n : Int} (h : n.natAbs ≤ 2 ^ 64) :
    rank (ofInt n) = if n < 0 then -(natMagnitude n.natAbs : Int) else natMagnitude n.natAbs := by
  simp only [rank, isNegative_ofInt h, magnitude_ofInt h, decide_eq_true_eq]

theorem totalRank_ofInt {n : Int} (h : n.natAbs ≤ 2 ^ 64) :
    totalRank (ofInt n) = if n < 0 then -(natMagnitude n.natAbs : Int) - 1 else natMagnitude n.natAbs := by
  simp only [totalRank, isNegative_ofInt h, magnitude_ofInt h, decide_eq_true_eq]

theorem totalRank_ofInt_mono {m n : Int} (hm : m.natAbs ≤ 2 ^ 64) (hn : n.natAbs ≤ 2 ^ 64) (h : m ≤ n) :
    totalRank (ofInt m) ≤ totalRank (ofInt n) := by
  rw [totalRank_ofInt hm, totalRank_ofInt hn]
  split <;> split
  · have := natMagnitude_mono (show n.natAbs ≤ m.natAbs by omega)
    omega
  · omega
  · omega
  · have := natMagnitude_mono (show m.natAbs ≤ n.natAbs by omega)
    omega

/-! ## Numbers among all floats -/

theorem rank_mono {x y : Float} (h : totalRank x ≤ totalRank y) : rank x ≤ rank y := by
  obtain ⟨-, hx, htx⟩ | ⟨-, hx, htx⟩ := rank_cases x
  · obtain ⟨-, hy, hty⟩ | ⟨-, hy, hty⟩ := rank_cases y
    · omega
    · omega
  · obtain ⟨-, hy, hty⟩ | ⟨-, hy, hty⟩ := rank_cases y
    · omega
    · omega

theorem compare_totalRank {x : Float} (hz : magnitude x ≠ 0) (y : Float) :
    compare (totalRank x) (totalRank y) = compare (rank x) (rank y) := by
  rcases Int.lt_trichotomy (rank x) (rank y) with h | h | h
  · have ht : totalRank x < totalRank y := Int.not_le.mp fun ht => Int.not_le.mpr h (rank_mono ht)
    rw [Int.compare_eq_lt.mpr h, Int.compare_eq_lt.mpr ht]
  · rw [eq_of_rank_eq h hz, Int.compare_eq_eq.mpr rfl, Int.compare_eq_eq.mpr rfl]
  · have ht : totalRank y < totalRank x := Int.not_le.mp fun ht => Int.not_le.mpr h (rank_mono ht)
    rw [Int.compare_eq_gt.mpr h, Int.compare_eq_gt.mpr ht]

theorem totalRank_of_isNaN {x : Float} (hx : isNaN x = true) :
    (∀ y, isNaN y = false → totalRank x < totalRank y) ∨ ∀ y, isNaN y = false → totalRank y < totalRank x := by
  have hbeyond : ∀ y, isNaN y = false → magnitude y < magnitude x := by
    intro y hy
    simp only [isNaN, decide_eq_true_eq, decide_eq_false_iff_not] at hx hy
    omega
  obtain ⟨-, -, hx⟩ | ⟨-, -, hx⟩ := rank_cases x
  · refine Or.inl fun y hy => ?_
    have := hbeyond y hy
    obtain ⟨-, -, hy⟩ | ⟨-, -, hy⟩ := rank_cases y
    · omega
    · omega
  · refine Or.inr fun y hy => ?_
    have := hbeyond y hy
    obtain ⟨-, -, hy⟩ | ⟨-, -, hy⟩ := rank_cases y
    · omega
    · omega

/-! ## Whole floats -/

theorem natMagnitude_mul {m : Nat} (hlo : 2 ^ 52 ≤ m) (hhi : m < 2 ^ 53) (k : Nat) :
    natMagnitude (m * 2 ^ k) = (k + 1074) * 2 ^ 52 + m := by
  have hm : m ≠ 0 := by omega
  have hl : (m * 2 ^ k).log2 = 52 + k := by rw [log2_mul_two_pow hm, log2_eq hlo hhi]
  have hs : significand (m * 2 ^ k) = m := by
    unfold significand
    rw [hl, show 52 - (52 + k) = 0 by omega, show 52 + k - 52 = k by omega, Nat.pow_zero, Nat.mul_one,
      halfEven_mul]
  have hz : m * 2 ^ k ≠ 0 := Nat.mul_ne_zero hm (Nat.ne_of_gt (Nat.two_pow_pos k))
  rw [natMagnitude, if_neg hz, hl, hs]
  omega

theorem natMagnitude_of_mul {m n k : Nat} (hlo : 2 ^ 52 ≤ m) (hhi : m < 2 ^ 53) (h : n * 2 ^ k = m) :
    natMagnitude n + k * 2 ^ 52 = 1074 * 2 ^ 52 + m := by
  have hn : n ≠ 0 := by rintro rfl; omega
  have hl : n.log2 + k = 52 := by rw [← log2_mul_two_pow hn, h, log2_eq hlo hhi]
  have hs : significand n = m := by
    unfold significand
    rw [show 52 - n.log2 = k by omega, show n.log2 - 52 = 0 by omega, halfEven_zero, h]
  rw [natMagnitude, if_neg hn, hs]
  omega

/-- A float is subnormal, or its magnitude is the sum of an exponent and a full significand. -/
theorem parts_eq (x : Float) :
    (magnitude x < 2 ^ 52 ∧ parts x = (magnitude x, -1074)) ∨
      ∃ m k : Nat, 2 ^ 52 ≤ m ∧ m < 2 ^ 53 ∧ magnitude x = k * 2 ^ 52 + m ∧ parts x = (m, (k : Int) - 1074) := by
  have hd := Nat.div_add_mod (magnitude x) leastNormal
  have hr : magnitude x % leastNormal < leastNormal := Nat.mod_lt _ (by decide)
  unfold parts
  generalize magnitude x / leastNormal = e at hd ⊢
  generalize magnitude x % leastNormal = f at hd hr ⊢
  unfold leastNormal at hd hr ⊢
  dsimp only
  by_cases he : e = 0
  · left
    rw [if_pos he]
    have hf : f = magnitude x := by omega
    exact ⟨by omega, by rw [hf]⟩
  · right
    rw [if_neg he]
    refine ⟨f + 0x10000000000000, e - 1, by omega, by omega, by omega, ?_⟩
    congr 1
    omega

def withSign (x : Float) (n : Nat) : Int :=
  if isNegative x then -(n : Int) else n

theorem natAbs_withSign (x : Float) (n : Nat) : (withSign x n).natAbs = n := by
  unfold withSign
  split <;> omega

theorem withSign_sign (x : Float) (n : Nat) :
    withSign x n = 0 ∨ isNegative x = decide (withSign x n < 0) := by
  unfold withSign
  cases isNegative x with
  | false => simp
  | true =>
    rw [if_pos rfl, eq_comm (a := true), decide_eq_true_iff]
    omega

theorem toInt?_of_parts {x : Float} {m : Nat} {q : Int} (hf : isFinite x = true) (hp : parts x = (m, q)) :
    toInt? x = if 0 ≤ q then some (withSign x (m * 2 ^ q.natAbs))
      else if m % 2 ^ q.natAbs = 0 then some (withSign x (m / 2 ^ q.natAbs)) else none := by
  unfold toInt?
  rw [if_pos hf, hp]
  rfl

theorem isFinite_of_toInt? {x : Float} {n : Int} (h : toInt? x = some n) : isFinite x = true := by
  unfold toInt? at h
  split at h
  · assumption
  · cases h

theorem magnitude_of_toInt? {x : Float} {n : Int} (h : toInt? x = some n) :
    magnitude x = natMagnitude n.natAbs ∧ (n = 0 ∨ isNegative x = decide (n < 0)) := by
  have hf := isFinite_of_toInt? h
  rcases parts_eq x with ⟨hm, hp⟩ | ⟨m, k, hlo, hhi, hm, hp⟩
  · -- a subnormal float is whole only if it is zero
    rw [toInt?_of_parts hf hp, if_neg (by decide)] at h
    split at h
    · rename_i hz
      have hz : magnitude x = 0 := by
        rw [Nat.mod_eq_of_lt (Nat.lt_of_lt_of_le hm (Nat.pow_le_pow_right (by decide) (by decide)))] at hz
        exact hz
      cases h
      rw [natAbs_withSign, hz, Nat.zero_div]
      exact ⟨rfl, withSign_sign x 0⟩
    · cases h
  · rw [toInt?_of_parts hf hp] at h
    split at h
    · rename_i hq
      cases h
      rw [natAbs_withSign, natMagnitude_mul hlo hhi, hm]
      exact ⟨by omega, withSign_sign x _⟩
    · split at h
      · rename_i hq hz
        cases h
        have hn := natMagnitude_of_mul hlo hhi (Nat.div_mul_cancel (Nat.dvd_of_mod_eq_zero hz))
        rw [natAbs_withSign]
        exact ⟨by omega, withSign_sign x _⟩
      · cases h

theorem rank_of_toInt? {x : Float} {n : Int} (hn : n.natAbs ≤ 2 ^ 64) (h : toInt? x = some n) :
    rank x = rank (ofInt n) := by
  obtain ⟨hm, hs⟩ := magnitude_of_toInt? h
  rw [rank_ofInt hn, rank, hm]
  rcases hs with rfl | hs
  · split <;> rfl
  · rw [hs]
    simp

theorem toInt?_of_magnitude_zero {x : Float} (h : magnitude x = 0) : toInt? x = some 0 := by
  have hf : isFinite x = true := by
    unfold isFinite
    rw [h]
    rfl
  have hp : parts x = (0, -1074) := by
    unfold parts
    rw [h]
    rfl
  rw [toInt?_of_parts hf hp, if_neg (by decide), Nat.zero_mod, if_pos rfl, Nat.zero_div]
  unfold withSign
  split <;> rfl

theorem toInt?_eq_of_rank_eq {x y : Float} (h : rank x = rank y) : toInt? x = toInt? y := by
  by_cases hz : magnitude x = 0
  · rw [toInt?_of_magnitude_zero hz, toInt?_of_magnitude_zero (magnitude_eq_of_rank_eq h ▸ hz)]
  · rw [eq_of_rank_eq h hz]

/-! ## Integers of at most 53 bits -/

theorem parts_of_magnitude {x : Float} {m k : Nat} (hlo : 2 ^ 52 ≤ m) (hhi : m < 2 ^ 53)
    (h : magnitude x = k * 2 ^ 52 + m) : parts x = (m, (k : Int) - 1074) := by
  rcases parts_eq x with ⟨hm, _⟩ | ⟨m', k', hlo', hhi', hm, hp⟩
  · omega
  · rw [hp]
    have hk : k' = k := by omega
    subst hk
    rw [show m' = m by omega]

theorem toInt?_ofInt {n : Int} (h : n.natAbs ≤ 2 ^ 53) : toInt? (ofInt n) = some n := by
  have hb : n.natAbs ≤ 2 ^ 64 := Nat.le_trans h (by decide)
  by_cases h0 : n = 0
  · subst h0; decide +kernel
  by_cases h53 : n.natAbs = 2 ^ 53
  · rcases Int.natAbs_eq n with hn | hn <;> rw [hn, h53] <;> decide +kernel
  have hnz : n.natAbs ≠ 0 := by omega
  have hl : n.natAbs.log2 < 53 := (Nat.log2_lt hnz).mpr (by omega)
  generalize hk : 52 - n.natAbs.log2 = k
  have hlo : 2 ^ 52 ≤ n.natAbs * 2 ^ k := by
    have := (leading_bounds hnz).1
    rwa [show n.natAbs.log2 - 52 = 0 by omega, Nat.pow_zero, Nat.div_one, hk] at this
  have hhi : n.natAbs * 2 ^ k < 2 ^ 53 := by
    have := (leading_bounds hnz).2
    rwa [show n.natAbs.log2 - 52 = 0 by omega, Nat.pow_zero, Nat.div_one, hk] at this
  have hmag : magnitude (ofInt n) = (1074 - k) * 2 ^ 52 + n.natAbs * 2 ^ k := by
    have := natMagnitude_of_mul hlo hhi rfl
    rw [magnitude_ofInt hb]
    omega
  have hw : withSign (ofInt n) n.natAbs = n := by
    unfold withSign
    rw [isNegative_ofInt hb]
    simp only [decide_eq_true_eq]
    split <;> omega
  rw [toInt?_of_parts (isFinite_ofInt hb) (parts_of_magnitude hlo hhi hmag)]
  by_cases hz : k = 0
  · subst hz
    rw [if_pos (by decide)]
    simpa using hw
  · have hq : (((1074 - k : Nat) : Int) - 1074).natAbs = k := by omega
    rw [if_neg (by omega), hq, if_pos (Nat.mul_mod_left _ _), Nat.mul_div_cancel _ (Nat.two_pow_pos k), hw]

theorem compare_rank_ofInt {x : Float} {m n : Int} (hx : toInt? x = some m) (hm : m.natAbs ≤ 2 ^ 64)
    (hn : n.natAbs ≤ 2 ^ 53) : compare (rank x) (rank (ofInt n)) = compare m n := by
  have hn' : n.natAbs ≤ 2 ^ 64 := Nat.le_trans hn (by decide)
  have hrank : rank x = rank (ofInt m) := rank_of_toInt? hm hx
  have hne : rank x = rank (ofInt n) → m = n := by
    intro h
    rw [toInt?_eq_of_rank_eq h, toInt?_ofInt hn] at hx
    exact (Option.some.inj hx).symm
  rcases Int.lt_trichotomy m n with h | h | h
  · have hle := rank_mono (totalRank_ofInt_mono hm hn' (Int.le_of_lt h))
    have hlt : rank x < rank (ofInt n) :=
      Int.lt_iff_le_and_ne.mpr ⟨Int.le_trans (Int.le_of_eq hrank) hle, fun he => Int.ne_of_lt h (hne he)⟩
    rw [Int.compare_eq_lt.mpr h, Int.compare_eq_lt.mpr hlt]
  · rw [hrank, h, Int.compare_eq_eq.mpr rfl, Int.compare_eq_eq.mpr rfl]
  · have hle := rank_mono (totalRank_ofInt_mono hn' hm (Int.le_of_lt h))
    have hgt : rank (ofInt n) < rank x :=
      Int.lt_iff_le_and_ne.mpr ⟨Int.le_trans hle (Int.le_of_eq hrank.symm), fun he => Int.ne_of_gt h (hne he.symm)⟩
    rw [Int.compare_eq_gt.mpr h, Int.compare_eq_gt.mpr hgt]

end TriGraph.Number
