import TriGraph.Proofs.Index.Agreement
import TriGraph.Proofs.Index.Range

/-!
# Keys and the order of values

Keys of every kind are in one order, NaNs among them, while values are only compared with values of their own kind.
Where both bounds of a range are of one kind, whatever is of another kind, or is a NaN, lies outside both of them.
-/

namespace TriGraph

namespace Index.Key

open Number

/-! ## A value and a bound -/

inductive Bound : Value → Key → Prop where
  | text (s : String) : Bound (.text s) (.text s)
  | bool (b : Bool) : Bound (.bool b) (.bool b)
  | int {n : Int64} (h : n.toInt.natAbs < 2 ^ 53) : Bound (.int n) (.int n)

theorem tier_ofFloat (x : Float) : (ofFloat x).tier = 1 := by
  rcases ofFloat_cases x with ⟨n, h⟩ | h
  · rw [h]
    rfl
  · rw [h]
    rfl

theorem compare_ofFloat_int {x : Float} {n : Int64} (hn : n.toInt.natAbs < 2 ^ 53) :
    compare (ofFloat x) (.int n) = compare (rank x) (rank (ofInt n.toInt)) := by
  rcases ofFloat_cases x with ⟨m, hm⟩ | hx
  · rw [hm]
    exact (compare_rank_ofInt (ofFloat_eq_int.mp hm) (natAbs_toInt_le m) (Nat.le_of_lt hn)).symm
  · -- the float is no integer of 64 bits, so it is neither a zero nor the float of the bound
    have hz : magnitude x ≠ 0 := by
      intro hz
      have hi : ofFloat x = .int 0 := ofFloat_eq_int.mpr (toInt?_of_magnitude_zero hz)
      rw [hx] at hi
      cases hi
    have hne : compare (rank x) (rank (ofInt n.toInt)) ≠ .eq := by
      intro he
      have hi := (toInt?_eq_of_rank_eq (Int.compare_eq_eq.mp he)).trans (toInt?_ofInt (Nat.le_of_lt hn))
      rw [ofFloat_eq_int.mpr hi] at hx
      cases hx
    rw [hx]
    change (compare (totalRank x) (totalRank (ofInt n.toInt))).then .gt = _
    rw [compare_totalRank hz]
    cases h : compare (rank x) (rank (ofInt n.toInt)) with
    | eq => exact absurd h hne
    | lt => rfl
    | gt => rfl

theorem compare?_bound {v b : Value} {k l : Key} (hb : Bound b l) (hk : ofValue? v = some k) :
    v.compare? b = if k.tier = l.tier ∧ v.isNaN = false then some (compare k l) else none := by
  cases hb with
  | text s =>
    cases v with
    | float x => cases hk; rw [tier_ofFloat]; rfl
    | _ => cases hk <;> rfl
  | bool b =>
    cases v with
    | float x => cases hk; rw [tier_ofFloat]; rfl
    | _ => cases hk <;> rfl
  | @int n hn =>
    cases v with
    | float x =>
      cases hk
      have hb : isNaN (ofInt n.toInt) = false := isNaN_ofInt (natAbs_toInt_le n)
      rw [tier_ofFloat, compare_ofFloat_int hn]
      change Number.compare? x (ofInt n.toInt) = _
      cases hx : isNaN x with
      | false => simp [Number.compare?, hx, hb, tier, Value.isNaN]
      | true => simp [Number.compare?, hx, Value.isNaN]
    | _ => cases hk <;> rfl

theorem compare?_of_unkeyed {v b : Value} {l : Key} (hb : Bound b l) (hk : ofValue? v = none) :
    v.compare? b = none := by
  cases v with
  | list items => cases hb <;> rfl
  | object fields => cases hb <;> rfl
  | _ => cases hk

/-! ## Outside of both bounds -/

theorem order_of_tier_ne {k l : Key} (h : k.tier ≠ l.tier) : compare k l = compare k.tier l.tier := by
  cases k <;> cases l <;> first | rfl | exact absurd rfl h

theorem outside_of_tier_ne {k kl kh : Key} (ht : kl.tier = kh.tier) (h : k.tier ≠ kl.tier) :
    compare k kl = .lt ∨ compare k kh = .gt := by
  rw [order_of_tier_ne h, order_of_tier_ne (ht ▸ h), ← ht]
  rcases Nat.lt_or_gt_of_ne h with h | h
  · exact Or.inl (Nat.compare_eq_lt.mpr h)
  · exact Or.inr (Nat.compare_eq_gt.mpr h)

theorem ofFloat_of_isNaN {x : Float} (h : isNaN x = true) : ofFloat x = .float x := by
  rcases ofFloat_cases x with ⟨n, hn⟩ | hx
  · rw [isNaN_of_isFinite (isFinite_of_toInt? (ofFloat_eq_int.mp hn))] at h
    cases h
  · exact hx

theorem outside_of_isNaN {x : Float} (hx : isNaN x = true) (m n : Int64) :
    compare (ofFloat x) (.int m) = .lt ∨ compare (ofFloat x) (.int n) = .gt := by
  rw [ofFloat_of_isNaN hx]
  change (compare (totalRank x) (totalRank (ofInt m.toInt))).then .gt = _ ∨
    (compare (totalRank x) (totalRank (ofInt n.toInt))).then .gt = _
  rcases totalRank_of_isNaN hx with h | h
  · rw [Int.compare_eq_lt.mpr (h _ (isNaN_ofInt (natAbs_toInt_le m)))]
    exact Or.inl rfl
  · rw [Int.compare_eq_gt.mpr (h _ (isNaN_ofInt (natAbs_toInt_le n)))]
    exact Or.inr rfl

theorem outside_of_unordered {v lo hi : Value} {k kl kh : Key} (hl : Bound lo kl) (hh : Bound hi kh)
    (ht : kl.tier = kh.tier) (hk : ofValue? v = some k) (hv : ¬(k.tier = kl.tier ∧ v.isNaN = false)) :
    compare k kl = .lt ∨ compare k kh = .gt := by
  by_cases hkl : k.tier = kl.tier
  · have hn : v.isNaN = true := Bool.eq_true_of_not_eq_false fun hn => hv ⟨hkl, hn⟩
    cases v with
    | float x =>
      cases hk
      rw [tier_ofFloat] at hkl
      cases hl with
      | int _ =>
        cases hh with
        | int _ => exact outside_of_isNaN hn _ _
        | _ => cases ht
      | _ => cases hkl
    | _ => cases hn
  · exact outside_of_tier_ne ht hkl

theorem between_iff_compare {kl kh k : Key} :
    between kl kh k = true ↔ compare k kl ≠ .lt ∧ compare k kh ≠ .gt := by
  have hlower : kl.atMost k = true ↔ compare k kl ≠ .lt := by
    change (compare kl k != .gt) = true ↔ _
    rw [bne_iff_ne, Ne, Std.OrientedCmp.gt_iff_lt]
  have hupper : k.atMost kh = true ↔ compare k kh ≠ .gt := bne_iff_ne
  rw [between, Bool.and_eq_true, hlower, hupper]

end Index.Key

/-! ## Between two bounds -/

namespace Value

/-- Two values of one kind, integers of 53 bits if they are numbers. -/
inductive Bounds : Value → Value → Prop where
  | texts (s t : String) : Bounds (.text s) (.text t)
  | truths (a b : Bool) : Bounds (.bool a) (.bool b)
  | integers {m n : Int64} (hm : m.toInt.natAbs < 2 ^ 53) (hn : n.toInt.natAbs < 2 ^ 53) : Bounds (.int m) (.int n)

theorem Bounds.keys {lo hi : Value} (h : Bounds lo hi) {kl kh : Index.Key} (hl : Index.Key.ofValue? lo = some kl)
    (hh : Index.Key.ofValue? hi = some kh) : Index.Key.Bound lo kl ∧ Index.Key.Bound hi kh ∧ kl.tier = kh.tier := by
  cases h with
  | texts s t => cases hl; cases hh; exact ⟨.text s, .text t, rfl⟩
  | truths a b => cases hl; cases hh; exact ⟨.bool a, .bool b, rfl⟩
  | integers hm hn => cases hl; cases hh; exact ⟨.int hm, .int hn, rfl⟩

theorem atLeast_iff {u v : Value} : u.atLeast v = true ↔ ∃ o, u.compare? v = some o ∧ o ≠ .lt := by
  unfold atLeast
  cases u.compare? v with
  | none => simp
  | some o => cases o <;> simp

theorem atMost_iff {u v : Value} : u.atMost v = true ↔ ∃ o, u.compare? v = some o ∧ o ≠ .gt := by
  unfold atMost
  cases u.compare? v with
  | none => simp
  | some o => cases o <;> simp

end Value

theorem Index.Key.between_iff {lo hi v : Value} {kl kh : Key} (hl : Bound lo kl) (hh : Bound hi kh)
    (ht : kl.tier = kh.tier) :
    (∃ k, ofValue? v = some k ∧ between kl kh k = true) ↔ v.atLeast lo = true ∧ v.atMost hi = true := by
  rw [Value.atLeast_iff, Value.atMost_iff]
  cases hk : ofValue? v with
  | none =>
    rw [compare?_of_unkeyed hl hk]
    simp
  | some k =>
    rw [compare?_bound hl hk, compare?_bound hh hk, ← ht]
    by_cases hv : k.tier = kl.tier ∧ v.isNaN = false
    · simp [if_pos hv, between_iff_compare]
    · have hout : ¬(compare k kl ≠ .lt ∧ compare k kh ≠ .gt) := by
        rintro ⟨hlower, hupper⟩
        exact (outside_of_unordered hl hh ht hk hv).elim hlower hupper
      simp [if_neg hv, between_iff_compare, hout]

end TriGraph
